import TypedIR.Engine.Reference
import TypedIR.Proofs.Ownership.Typing
import TypedIR.Proofs.Workspace.Actions
import TypedIR.Proofs.Workspace.Edits
import TypedIR.Proofs.Workspace.Store

/-!
Contract: what holds of every live context of every reachable workspace.

Owns:
- an induction over elementary changes: what holds of fresh contexts, and is kept by
  each permitted change and each recorded verdict, holds of all live contexts after
  commands that make permitted changes only;
- the invariants of a context, for every engine and every sequence of commands;
- the tags of the handles that a successful edit was given;
- a short run that later results are tried on.
-/

namespace TypedIR

/-- What the command changes in a context, verdicts apart, is permitted. -/
def Command.Meets (settings : Settings) (permits : ContextId → Effect → Prop) : Command → Prop
  | .edit change => permits (change.operation settings).home change.effect
  | .setConvention function _ => permits function.context .plain
  | _ => True

theorem Command.meets_isEdit (settings : Settings) (command : Command) :
    command.Meets settings fun _ effect => effect.IsEdit := by
  cases command with
  | edit change => exact change.effect_isEdit
  | setConvention function code => exact fun _ equal => by cases equal
  | _ => trivial

namespace Workspace

variable {σ : Type} {engine : Engine σ} {initial : σ} {workspace : Workspace σ}

/-- The settings are the given ones, and each live context carries its own identity and has the
property. -/
structure Every (settings : Settings) (holds : Context → Prop) (workspace : Workspace σ) :
    Prop where
  settings : workspace.store.settings = settings
  contexts : ∀ id context, workspace.store.context? id = some context →
    context.id = id ∧ holds context

/-- What is kept by all permitted changes of a live context and by all verdicts. -/
structure KeptBy (engine : Engine σ) (settings : Settings) (permits : ContextId → Effect → Prop)
    (holds : Context → Prop) : Prop where
  fresh : ∀ id native name, holds (.empty id native name)
  step : ∀ {effect before after}, permits before.id effect → holds before →
    Change settings effect before after → holds after
  verified : ∀ (workspace : Workspace σ) (function : FunctionId) (context : Context)
      (name : String),
    workspace.store.settings = settings →
    workspace.store.context? function.context = some context → holds context →
    context.functionName function = .ok name →
    holds (context.recordState function.index
      (Verdict.ofJudgement engine.name name
        (engine.verify workspace.native workspace.store function)).state)

variable {settings : Settings} {permits : ContextId → Effect → Prop} {holds : Context → Prop}

theorem KeptBy.changes (kept : KeptBy engine settings permits holds) {effect : Effect}
    {before after : Context} (permitted : permits before.id effect) (held : holds before)
    (changes : Changes settings effect before after) : holds after := by
  induction changes with
  | refl => exact held
  | tail earlier change inductionHypothesis =>
      rw [← Changes.id_eq earlier] at permitted
      exact kept.step permitted inductionHypothesis change

/-! ### Every action -/

namespace Every

/-- A changed context may have a property that the others have as well. -/
theorem put (every : workspace.Every settings holds) {id : ContextId} {context changed : Context}
    (found : workspace.store.context? id = some context) {property : Context → Prop}
    (held : property changed) (sameId : changed.id = context.id)
    (others : ∀ other live, other ≠ id → live.id = other → holds live → property live) :
    Every settings property { workspace with store := workspace.store.put id.index changed } where
  settings := every.settings
  contexts := by
    intro other live lookup
    dsimp only at lookup
    rw [Store.context?_put found] at lookup
    by_cases same : other = id
    · rw [if_pos same] at lookup
      obtain rfl := Option.some.inj lookup
      rw [sameId, same]
      exact ⟨(every.contexts id context found).1, held⟩
    · rw [if_neg same] at lookup
      obtain ⟨otherId, otherHeld⟩ := every.contexts other live lookup
      exact ⟨otherId, others other live same otherId otherHeld⟩

variable (kept : KeptBy engine settings permits holds)

include kept

theorem perform (every : workspace.Every settings holds) {α : Type} (operation : Operation α)
    {effect : Effect} (permitted : permits operation.home effect)
    (changes : ∀ home value changed, home.id = operation.home →
      (operation.effect home).1 = .ok (value, changed) → Changes settings effect home changed) :
    Every settings holds (Action.perform operation workspace).workspace := by
  rcases Action.perform_cases operation workspace with ⟨_, _, same⟩ | performed
  · rwa [same]
  · obtain ⟨home, value, changed, found, done, _, equal⟩ := performed
    obtain ⟨sameId, held⟩ := every.contexts _ home found
    have made := changes home value changed sameId done
    rw [equal]
    exact every.put found (kept.changes (sameId ▸ permitted) held made) made.id_eq
      fun _ _ _ _ otherHeld => otherHeld

theorem created (name : String) :
    Action.Preserves (Every settings holds) (Action.createContext engine name) := by
  intro workspace every
  refine ⟨?_, fun id context found => ?_⟩
  · exact Store.settings_create.trans every.settings
  · rcases Store.context?_create found with ⟨_, rfl⟩ | old
    · exact ⟨rfl, kept.fresh id _ name⟩
    · exact every.contexts id context old

omit kept in
theorem destroyed (id : ContextId) :
    Action.Preserves (Every settings holds) (Action.destroyContext engine id) := by
  intro workspace every
  rcases Action.destroyContext_cases engine id workspace with ⟨_, _, same⟩ | destroyed
  · rwa [same]
  · obtain ⟨context, store, done, _, equal⟩ := destroyed
    obtain ⟨sameSettings, old⟩ := Store.destroy_ok done
    rw [equal]
    refine ⟨sameSettings.trans every.settings, fun other live found => ?_⟩
    exact every.contexts other live (old other live found)

theorem edited (every : workspace.Every settings holds) {change : Edit}
    (permitted : permits (change.operation settings).home change.effect) :
    Every settings holds
      (Action.perform (change.operation workspace.store.settings) workspace).workspace := by
  rw [← every.settings] at permitted
  apply every.perform kept _ permitted
  intro home value changed sameId done
  rw [every.settings] at sameId done
  exact (Edit.operation_ok sameId done).2

theorem convened {function : FunctionId} (code : UInt32)
    (permitted : permits function.context .plain) :
    Action.Preserves (Every settings holds) (Action.setConvention engine function code) := by
  intro workspace every
  apply every.perform kept _ permitted
  intro home value changed _ done
  exact (Context.setConvention_ok done).2

theorem verified (function : FunctionId) :
    Action.Preserves (Every settings holds) (Action.verify engine function) := by
  intro workspace every
  rcases Action.verify_cases engine function workspace with ⟨_, _, same⟩ | verified
  · rwa [same]
  · obtain ⟨context, name, _, found, named, rfl, _, equal⟩ := verified
    obtain ⟨_, held⟩ := every.contexts _ context found
    have recorded := kept.verified workspace function context name every.settings found held named
    rw [equal]
    exact every.put found recorded rfl fun _ _ _ _ otherHeld => otherHeld

theorem command {command : Command} (permitted : command.Meets settings permits) :
    Action.Preserves (Every settings holds) (command.run engine) := by
  refine command.preserves (created kept) destroyed ?_ ?_ (verified kept)
  · rintro change rfl workspace every
    exact every.edited kept permitted
  · rintro function code rfl
    exact convened kept code permitted

end Every

/-! ### Reachable workspaces -/

theorem every_start (settings : Settings) (holds : Context → Prop) :
    Every settings holds (start settings initial) where
  settings := rfl
  contexts := by simp [start, Store.empty, Store.context?]

theorem every_afterAll (kept : KeptBy engine settings (fun _ effect => effect.IsEdit) holds)
    (commands : List Command) :
    Every settings holds (afterAll engine (start settings initial) commands) :=
  afterAll_preserves (fun command => Every.command kept (command.meets_isEdit settings))
    (every_start settings holds) commands

/-- What is kept by every change is kept by verdicts too, whatever the engine says. -/
theorem keptBy_of_step (engine : Engine σ) (fresh : ∀ id native name, holds (.empty id native name))
    (step : ∀ {effect before after}, holds before → Change settings effect before after →
      holds after) : KeptBy engine settings permits holds where
  fresh := fresh
  step := fun _ held change => step held change
  verified := fun _ _ _ _ _ _ held _ => step held (.record _ _)

theorem keptBy_coherent (engine : Engine σ) (settings : Settings) :
    KeptBy engine settings (fun _ effect => effect.IsEdit) Context.Coherent :=
  keptBy_of_step engine Context.coherent_empty fun coherent change => coherent.step change

theorem Reachable.after_commands (reachable : Reachable engine initial workspace)
    (commands : List Command) : Reachable engine initial (workspace.afterAll engine commands) := by
  obtain ⟨settings, earlier, rfl⟩ := reachable
  exact ⟨settings, earlier ++ commands, (afterAll_append earlier commands).symm⟩

theorem Reachable.after_command (reachable : Reachable engine initial workspace)
    (command : Command) : Reachable engine initial (workspace.after engine command) :=
  reachable.after_commands [command]

/-- All live contexts are coherent. -/
theorem Reachable.every (reachable : Reachable engine initial workspace) :
    workspace.Every workspace.store.settings Context.Coherent := by
  obtain ⟨settings, commands, rfl⟩ := reachable
  have every := @every_afterAll _ _ initial _ _ (keptBy_coherent engine settings) commands
  rw [every.settings]
  exact every

theorem Reachable.coherent (reachable : Reachable engine initial workspace) {id : ContextId}
    {context : Context} (found : workspace.store.context? id = some context) :
    context.id = id ∧ context.Coherent :=
  reachable.every.contexts id context found

/-- Handles of another context do not get into a context. -/
theorem Reachable.edit_tags (reachable : Reachable engine initial workspace) {edit : Edit}
    {answer : Answer} (done : ((Command.edit edit).run engine workspace).result = .ok answer) :
    ∀ handle ∈ edit.handles, handle.tag = (edit.operation workspace.store.settings).home := by
  rcases Action.perform_done done with ⟨home, changed, found, applied⟩
  obtain ⟨sameId, _⟩ := reachable.coherent found
  rw [← sameId]
  exact fun handle given => ((Edit.operation_ok sameId applied).1 handle given).tag_eq

/-- A function with two blocks, where the second uses what the first computes. -/
def sampleRun : List Command :=
  let context : ContextId := ⟨0, 0⟩
  [.createContext "sample",
    .edit (.integerType context 32),
    .edit (.signatureType ⟨context, 0⟩ [⟨context, 0⟩] false),
    .edit (.declare context "f" ⟨context, 1⟩),
    .edit (.appendBlock ⟨context, 0⟩ "entry"),
    .edit (.appendBlock ⟨context, 0⟩ "next"),
    .edit (.binary ⟨context, 0⟩ .add ⟨context, 1⟩ ⟨context, 1⟩ "sum"),
    .edit (.branch ⟨context, 0⟩ ⟨context, 1⟩),
    .edit (.ret ⟨context, 1⟩ (some ⟨context, 2⟩)),
    .verify ⟨context, 0⟩]

end Workspace

end TypedIR
