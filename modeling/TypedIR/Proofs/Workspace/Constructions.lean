import TypedIR.Description.Build
import TypedIR.Proofs.Description.Construction
import TypedIR.Proofs.Workspace.Types

/-!
Contract: constructions in the contexts of a workspace.

Owns:
- what a construction in a live context comes to, by its specification;
- the steps of a construction as commands, so that a construction leads to nothing
  that a client could not have reached command by command.
-/

namespace TypedIR

variable {σ α : Type} {engine : Engine σ} {initial : σ} {workspace : Workspace σ} {id : ContextId}
  {context after : Context}

/-- In a live home, an operation that nothing is held against puts its effect into the store. -/
theorem Action.workspace_perform {operation : Operation α} {value : α}
    (passed : operation.screen = .ok ())
    (found : workspace.store.context? operation.home = some context)
    (done : (operation.effect context).1 = .ok (value, after)) :
    (perform operation workspace).workspace =
      { workspace with store := workspace.store.put operation.home.index after } := by
  unfold perform
  rw [passed, found]
  cases came : operation.effect context with
  | mk result events =>
      rw [came] at done
      obtain rfl := done
      simp only [came]

namespace Description

open Construction

/-- The workspace with another context in the place of a live one. -/
theorem Step.command (step : Step (termsOf engine workspace) context after)
    (found : workspace.store.context? id = some context) (sameId : context.id = id) :
    ∃ command : Command, workspace.after engine command =
      { workspace with store := workspace.store.put id.index after } := by
  cases step with
  | edit change answer home passed done =>
      have here : (change.operation workspace.store.settings).home = id := home.trans sameId
      refine ⟨.edit change, ?_⟩
      rw [← here] at found ⊢
      exact Action.workspace_perform passed found done
  | convention function code home done =>
      have here : function.context = id := home.trans sameId
      refine ⟨.setConvention function code, ?_⟩
      rw [← here] at found ⊢
      refine (Action.workspace_bind_quiet (fun _ _ => rfl) workspace).trans ?_
      exact Action.workspace_perform rfl found done

theorem Steps.commands (steps : Steps (termsOf engine workspace) context after)
    (found : workspace.store.context? id = some context) (sameId : context.id = id) :
    ∃ commands, workspace.afterAll engine commands =
      { workspace with store := workspace.store.put id.index after } := by
  induction steps with
  | refl =>
      refine ⟨[], ?_⟩
      rw [Store.put_self found]
      rfl
  | @tail between after earlier step inductionHypothesis =>
      obtain ⟨commands, reached⟩ := inductionHypothesis
      have present : (workspace.afterAll engine commands).store.context? id = some between := by
        rw [reached]
        exact (Store.context?_put found).trans (if_pos rfl)
      have sameTerms : termsOf engine (workspace.afterAll engine commands) =
          termsOf engine workspace := by
        rw [reached]
        rfl
      rw [← sameTerms] at step
      obtain ⟨command, done⟩ := step.command present ((Steps.id_eq earlier).trans sameId)
      refine ⟨commands ++ [command], ?_⟩
      rw [Workspace.afterAll_concat, done, reached]
      simp only [Store.put_put]

/-- A construction in a live context, by its specification. -/
theorem construct_cases {construction : Construction α} {possible : Prop}
    {ensures : α → Context → Prop}
    (meets : Meets (termsOf engine workspace) construction context possible ensures)
    (found : workspace.store.context? id = some context) :
    ∃ after, (construct id construction workspace).workspace =
        { workspace with store := workspace.store.put id.index after } ∧
      Steps (termsOf engine workspace) context after ∧
      ((∃ value, (construct id construction workspace).result = .ok (.ok value) ∧ possible ∧
          ensures value after) ∨
        ∃ fault, (construct id construction workspace).result = .ok (.error fault) ∧
          ¬ possible) := by
  have ran : construct id construction workspace =
      ⟨.ok (construction.outcome ⟨context, []⟩).1,
        { workspace with
          store := workspace.store.put id.index (construction.outcome ⟨context, []⟩).2.context },
        (construction.outcome ⟨context, []⟩).2.events⟩ := by
    unfold construct
    rw [found]
    rfl
  rw [ran]
  rcases meets [] with
    ⟨value, after, later, came, steps, holds, ensured⟩ | ⟨fault, after, later, came, steps, failed⟩
  · rw [came]
    exact ⟨after, rfl, steps, .inl ⟨value, rfl, holds, ensured⟩⟩
  · rw [came]
    exact ⟨after, rfl, steps, .inr ⟨fault, rfl, failed⟩⟩

/-- Only in a live context something is constructed. -/
theorem construct_live {construction : Construction α} {result : Except BuildFault α}
    (done : (construct id construction workspace).result = .ok result) :
    ∃ context, workspace.store.context? id = some context := by
  unfold construct at done
  cases found : workspace.store.context? id with
  | none =>
      rw [found] at done
      cases done
  | some context => exact ⟨context, rfl⟩

end Description

/-- All live contexts satisfy what constructions keep, apart from verdicts. -/
theorem Workspace.Reachable.regular (reachable : Reachable engine initial workspace)
    (found : workspace.store.context? id = some context) :
    context.Regular workspace.store.settings :=
  ⟨reachable.canonical found, (reachable.coherent found).2⟩

end TypedIR
