import TypedIR.Proofs.Description.Idle
import TypedIR.Proofs.Workspace.Constructions
import TypedIR.Proofs.Workspace.Natives

/-!
Contract: runs of whole tasks, and one edit of one context, seen from outside.

Owns:
- tasks: a request, or the build of a whole description;
- runs of tasks, with all that they let an observer see;
- what all commands keep, builds keep as well, for a build makes elementary changes only;
- what holds of all live contexts, and of one context, in the course of a run;
- the frame of an edit: the one context is replaced and all else stays, the other contexts with
  what is recorded in them, the settings and the engine;
- when an edit succeeds, by what it checks beforehand and its effect in its home.

Nothing is asked of the engine or of the description.
-/

/-! ## Runs -/

namespace TypedIR

variable {σ : Type} {engine : Engine σ} {workspace : Workspace σ} {settings : Settings}

/-- What a client asks for in one go. -/
inductive Task where
  | request (request : Request)
  | build (description : Description.Module)

namespace Task

/-- The workspace after a task, refused or not, and what the task lets an observer see. -/
def run (engine : Engine σ) (workspace : Workspace σ) : Task → Workspace σ × List Event
  | .request asked =>
      ((asked.run engine workspace).workspace, (asked.run engine workspace).events)
  | .build description =>
      ((Description.build engine description workspace).workspace,
        (Description.build engine description workspace).events)

/-- The context that the task is to destroy. -/
def target? : Task → Option ContextId
  | .request (.command (.destroyContext id)) => some id
  | _ => none

end Task

/-- The workspace after a run, each step with its own engine, and what the run lets an observer
see. -/
def Workspace.pursue (workspace : Workspace σ) :
    List (Engine σ × Task) → Workspace σ × List Event
  | [] => (workspace, [])
  | (engine, task) :: rest =>
      (((task.run engine workspace).1.pursue rest).1,
        (task.run engine workspace).2 ++ ((task.run engine workspace).1.pursue rest).2)

theorem Workspace.pursue_append (workspace : Workspace σ) (earlier later : List (Engine σ × Task)) :
    workspace.pursue (earlier ++ later) =
      (((workspace.pursue earlier).1.pursue later).1,
        (workspace.pursue earlier).2 ++ ((workspace.pursue earlier).1.pursue later).2) := by
  induction earlier generalizing workspace with
  | nil => rfl
  | cons step rest inductionHypothesis =>
      rw [List.cons_append, pursue, inductionHypothesis, pursue, List.append_assoc]

namespace Store

namespace Lasting

variable {holds : Store → Prop} (lasting : Lasting settings holds)

include lasting

/-- Many changes of one context, as they come to the store in one go. -/
theorem course {store : Store} {id : ContextId} {before after : Context}
    (found : store.context? id = some before) (coherent : before.Coherent)
    (course : Course settings before after) (held : holds store) :
    after.Coherent ∧ holds (store.put id.index after) := by
  induction course with
  | refl =>
      have unchanged : Changes settings .plain before before := .refl
      exact ⟨coherent, lasting.changed found coherent unchanged held⟩
  | @tail between last _ step inductionHypothesis =>
      obtain ⟨_, _, change⟩ := step
      obtain ⟨kept, still⟩ := inductionHypothesis
      have lives : (store.put id.index between).context? id = some between :=
        (context?_put found).trans (if_pos rfl)
      have next := lasting.changed lives kept (.single change) still
      rw [put_put] at next
      exact ⟨kept.step change, next⟩

theorem construct {α : Type} {id : ContextId} {construction : Description.Construction α}
    (idle : construction.Idle settings) :
    Action.Preserves (Within settings holds)
      (Description.construct id construction : Action σ (Except Description.BuildFault α)) := by
  intro workspace ⟨every, held⟩
  unfold Description.construct
  cases found : workspace.store.context? id with
  | none => exact ⟨every, held⟩
  | some context =>
      have course := (idle ⟨context, []⟩).course
      obtain ⟨_, before⟩ := every.contexts id context found
      obtain ⟨coherent, still⟩ := lasting.course found before course held
      exact ⟨every.put found coherent course.id_eq fun _ _ _ _ otherHeld => otherHeld, still⟩

theorem build (engine : Engine σ) (description : Description.Module) :
    Action.Preserves (Within settings holds) (Description.build engine description) := by
  have created := lasting.createContext engine description.name
  refine created.bind fun id workspace within => ?_
  -- The construction runs with the settings of the store.
  have same : (Description.termsOf engine workspace).settings = settings := within.1.settings
  have idle := Description.populate_idle (Description.termsOf engine workspace) description
  rw [same] at idle
  refine (lasting.construct idle).bind (fun result => ?_) workspace within
  cases result with
  | ok _ => exact Action.preserves_pure _
  | error fault => exact (lasting.destroyContext engine id).bind fun _ => Action.preserves_pure _

theorem task (engine : Engine σ) (task : Task) (within : Within settings holds workspace) :
    Within settings holds (task.run engine workspace).1 := by
  cases task with
  | request asked => exact lasting.request engine asked workspace within
  | build description => exact lasting.build engine description workspace within

theorem pursue (within : Within settings holds workspace) (run : List (Engine σ × Task)) :
    Within settings holds (workspace.pursue run).1 := by
  induction run generalizing workspace with
  | nil => exact within
  | cons step rest inductionHypothesis =>
      exact inductionHypothesis (lasting.task step.1 step.2 within)

end Lasting

end Store

/-- At the start there is no context yet. -/
theorem Store.Lasting.Within.start {holds : Context → Prop} (settings : Settings) (native : σ) :
    Within settings (fun store => ∀ id context, store.context? id = some context → holds context)
      (Workspace.start settings native) :=
  ⟨Workspace.every_start settings _, fun id context found =>
    ((Workspace.every_start settings holds).contexts id context found).2⟩

theorem Store.Lasting.Within.every {holds : Context → Prop} {workspace : Workspace σ}
    (within : Within settings
      (fun store => ∀ id context, store.context? id = some context → holds context) workspace) :
    workspace.Every settings fun context => context.Coherent ∧ holds context where
  settings := within.1.settings
  contexts := fun id context found =>
    have same := within.1.contexts id context found
    ⟨same.1, same.2, within.2 id context found⟩

/-- What holds of fresh contexts and is kept by every change holds of all live contexts in the
course of a run. -/
theorem Workspace.every_pursue {holds : Context → Prop}
    (fresh : ∀ id native name, holds (.empty id native name))
    (invariant : Context.Invariant settings holds) (native : σ) (run : List (Engine σ × Task)) :
    ((start settings native).pursue run).1.Every settings
      fun context => context.Coherent ∧ holds context :=
  ((Store.lasting_every fresh invariant).pursue (.start settings native) run).every

/-- What changes keep, a context that is still there has kept. -/
theorem Workspace.holds_pursue {holds : Context → Prop}
    (within : Store.Lasting.Within settings Store.Sound workspace)
    (invariant : Context.Invariant settings holds) {id : ContextId} {context later : Context}
    (found : workspace.store.context? id = some context) (held : holds context)
    (run : List (Engine σ × Task))
    (lives : (workspace.pursue run).1.store.context? id = some later) : holds later := by
  obtain ⟨every, sound⟩ := within
  have now : ∀ other, workspace.store.context? id = some other → holds other := by
    intro other same
    obtain rfl := Option.some.inj (found.symm.trans same)
    exact held
  have onward := (Store.lasting_on id invariant).pursue
    ⟨every, ⟨sound, sound.hasIssued_of_live found⟩, now⟩ run
  exact onward.2.2 later lives

end TypedIR

/-! ## Edits -/

namespace TypedIR.Workspace

variable {σ : Type} {engine : Engine σ} {before after : Workspace σ} {workspace : Workspace σ}
  {id : ContextId} {context changed : Context} {edit : Edit} {answer : Answer}

/-- The context is in the place of a live one, and nothing else has changed. -/
structure Alters (id : ContextId) (changed : Context) (before after : Workspace σ) : Prop where
  here : after.store.context? id = some changed
  others : ∀ other, other ≠ id → after.store.context? other = before.store.context? other
  settings : after.store.settings = before.store.settings
  free : after.store.free = before.store.free
  native : after.native = before.native

theorem alters_put (found : before.store.context? id = some context) (changed : Context) :
    Alters id changed before { before with store := before.store.put id.index changed } where
  here := (Store.context?_put found).trans (if_pos rfl)
  others := fun _ apart => (Store.context?_put found).trans (if_neg apart)
  settings := rfl
  free := rfl
  native := rfl

/-- An edit succeeds if nothing is held against it beforehand and its home allows it. -/
theorem edit_eq_ok : ((Command.edit edit).run engine workspace).result = .ok answer ↔
    (edit.operation workspace.store.settings).screen = .ok () ∧ ∃ context changed,
      workspace.store.context? (edit.operation workspace.store.settings).home = some context ∧
        ((edit.operation workspace.store.settings).effect context).1 = .ok (answer, changed) := by
  show (Action.perform _ workspace).result = _ ↔ _
  unfold Action.perform
  cases (edit.operation workspace.store.settings).screen with
  | error fault => simp
  | ok _ =>
      cases workspace.store.context? (edit.operation workspace.store.settings).home with
      | none => simp
      | some context =>
          cases done : (edit.operation workspace.store.settings).effect context with
          | mk result events =>
              cases result with
              | error fault => simp [done]
              | ok result =>
                  obtain ⟨value, last⟩ := result
                  simp [done]

theorem edit_refused {fault : Fault}
    (refused : ((Command.edit edit).run engine workspace).result = .error fault) :
    ((Command.edit edit).run engine workspace).workspace = workspace := by
  rcases Action.perform_cases (edit.operation workspace.store.settings) workspace with
    ⟨_, _, unchanged⟩ | ⟨_, _, _, _, _, succeeded, _⟩
  · exact unchanged
  · cases refused.symm.trans succeeded

/-- The effect of an edit in its home is all that it does. -/
theorem edit_alters (engine : Engine σ)
    (passed : (edit.operation workspace.store.settings).screen = .ok ())
    (home : (edit.operation workspace.store.settings).home = id)
    (found : workspace.store.context? id = some context)
    (done : ((edit.operation workspace.store.settings).effect context).1 = .ok (answer, changed)) :
    ((Command.edit edit).run engine workspace).result = .ok answer ∧
      Alters id changed workspace ((Command.edit edit).run engine workspace).workspace := by
  subst home
  refine ⟨edit_eq_ok.mpr ⟨passed, context, changed, found, done⟩, ?_⟩
  show Alters _ _ _ (Action.perform _ workspace).workspace
  rw [Action.workspace_perform passed found done]
  exact alters_put found changed

end TypedIR.Workspace
