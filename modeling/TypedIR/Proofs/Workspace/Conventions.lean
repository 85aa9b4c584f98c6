import TypedIR.Engine.Scripted
import TypedIR.Proofs.Workspace.Invalidation
import TypedIR.Proofs.Workspace.Reachable
import TypedIR.Proofs.Workspace.Tasks

/-!
Contract: which conventions the functions of a reachable workspace can have.

Owns:
- engines with a fixed set of accepted codes;
- every function has an accepted code or the one that the settings give to new functions;
- all functions have accepted codes, whatever is done, exactly if that of the settings is
  accepted;
- a run that declares a function under an engine that does not accept its convention.

The engine is asked by the setter alone: a declaration takes the convention of the settings as it
is.
-/

namespace TypedIR

/-- The engine accepts the same codes in all its states. -/
def Engine.AcceptsExactly {σ : Type} (engine : Engine σ) (accepted : UInt32 → Bool) : Prop :=
  ∀ native code, engine.accepts native code = accepted code

namespace Workspace

variable {σ : Type} {engine : Engine σ} {initial : σ} {workspace : Workspace σ}
  {settings : Settings} {permitted : UInt32 → Prop} {accepted : UInt32 → Bool}

namespace Every

variable (every : workspace.Every settings (Context.Convened permitted))

include every

/-- An operation keeps conventions permitted if it does so in its home. -/
theorem convened_perform {α : Type} {operation : Operation α}
    (keeps : ∀ home value changed, home.Convened permitted →
      (operation.effect home).1 = .ok (value, changed) →
        changed.id = home.id ∧ changed.Convened permitted) :
    Every settings (Context.Convened permitted)
      (Action.perform operation workspace).workspace := by
  rcases Action.perform_cases operation workspace with ⟨_, _, same⟩ | performed
  · rwa [same]
  · obtain ⟨home, value, changed, found, done, _, equal⟩ := performed
    obtain ⟨sameId, held⟩ := keeps home value changed (every.contexts _ home found).2 done
    rw [equal]
    exact every.put found held sameId fun _ _ _ _ otherHeld => otherHeld

end Every

theorem convened_command
    (accepts : ∀ native code, engine.accepts native code = true → permitted code)
    (allowed : permitted settings.convention.code) (command : Command) :
    Action.Preserves (Every settings (Context.Convened permitted)) (command.run engine) := by
  refine command.preserves ?_ Every.destroyed ?_ ?_ ?_
  · intro name workspace every
    refine ⟨Store.settings_create.trans every.settings, fun id context found => ?_⟩
    rcases Store.context?_create found with ⟨_, rfl⟩ | old
    · exact ⟨rfl, List.forall_mem_nil _⟩
    · exact every.contexts id context old
  · intro change _ workspace every
    rw [every.settings]
    refine every.convened_perform fun home value changed held done => ?_
    exact ⟨(Edit.operation_done done).2.id_eq,
      (Edit.resets done).convened held fun _ same => same ▸ allowed⟩
  · intro function code _ workspace every
    refine every.convened_perform fun home value changed held done => ?_
    have plain : Changes settings .plain home changed := (Context.setConvention_ok done).2
    exact ⟨plain.id_eq,
      (Context.resets_setConvention done).convened held (accepts workspace.native)⟩
  · intro function workspace every
    rcases Action.verify_cases engine function workspace with ⟨_, _, same⟩ | verified
    · rwa [same]
    · obtain ⟨context, name, _, found, named, rfl, _, equal⟩ := verified
      obtain ⟨_, held⟩ := every.contexts _ context found
      rw [equal]
      refine every.put found (fun entry member => ?_) rfl fun _ _ _ _ otherHeld => otherHeld
      obtain ⟨old, listed, rfl⟩ := Context.mem_updateFunction.mp member
      split <;> exact held old listed

/-- All live functions of the workspace have permitted conventions. -/
def Convened (permitted : UInt32 → Prop) (workspace : Workspace σ) : Prop :=
  ∀ id context, workspace.store.context? id = some context → context.Convened permitted

/-- What can be said of conventions under an engine and given settings. -/
structure ConventionsTold (engine : Engine σ) (settings : Settings) (initial : σ)
    (accepted : UInt32 → Bool) : Prop where
  /-- Every function has an accepted code, or the one that the settings give to new functions. -/
  each : ∀ commands, (afterAll engine (start settings initial) commands).Convened fun code =>
    accepted code = true ∨ code = settings.convention.code
  /-- All functions have accepted codes at all times exactly if the settings give such a one. -/
  supported : (∀ commands, (afterAll engine (start settings initial) commands).Convened fun code =>
    accepted code = true) ↔ accepted settings.convention.code = true

theorem convened_afterAll
    (accepts : ∀ native code, engine.accepts native code = true → permitted code)
    (allowed : permitted settings.convention.code) (commands : List Command) :
    (afterAll engine (start settings initial) commands).Convened permitted := by
  intro id context found
  have every : Every settings (Context.Convened permitted)
      (afterAll engine (start settings initial) commands) :=
    afterAll_preserves (convened_command accepts allowed) (every_start settings _) commands
  exact (every.contexts id context found).2

/-- A run that declares one function. -/
def declaringRun : List Command :=
  let context : ContextId := ⟨0, 0⟩
  [.createContext "m",
    .edit (.voidType context),
    .edit (.signatureType ⟨context, 0⟩ [] false),
    .edit (.declare context "f" ⟨context, 1⟩)]

/-- The context of the run with some types and nothing else. -/
def typesOnly (native : NativeHandle) (types : Array TypeShape) : Context :=
  { Context.empty ⟨0, 0⟩ native "m" with types := types }

theorem intern_typesOnly (native : NativeHandle) {types : Array TypeShape} {shape : TypeShape}
    (missing : shape ∉ types) :
    (typesOnly native types).intern shape =
      (⟨⟨0, 0⟩, types.size⟩, typesOnly native (types.push shape)) := by
  have none : (typesOnly native types).findType? shape = none :=
    Array.findIdx?_eq_none_iff.mpr fun stored listed =>
      decide_eq_false fun same : stored = shape => missing (same ▸ listed)
  rw [Context.intern, none]
  rfl

/-- An edit of the only context, if nothing but its effect there is known. -/
theorem edit_known (engine : Engine σ) (edit : Edit) {context changed : Context} {answer : Answer}
    (passed : (edit.operation settings).screen = .ok ())
    (home : (edit.operation settings).home = ⟨0, 0⟩)
    (known : workspace.store.settings = settings ∧
      workspace.store.context? ⟨0, 0⟩ = some context)
    (done : ((edit.operation settings).effect context).1 = .ok (answer, changed)) :
    (after engine workspace (.edit edit)).store.settings = settings ∧
      (after engine workspace (.edit edit)).store.context? ⟨0, 0⟩ = some changed := by
  obtain ⟨rfl, found⟩ := known
  have alters := (edit_alters engine passed home found done).2
  exact ⟨alters.settings, alters.here⟩

/-- Whatever the engine accepts, the function gets the convention of the settings. -/
theorem declaringRun_functions :
    ((afterAll engine (start settings initial) declaringRun).store.context? ⟨0, 0⟩).map
      Context.functions = some [.declared 0 1 [] settings.convention.code] := by
  let native := (engine.create initial).1
  let answered (interned : TypeId × Context) : Except Fault (Answer × Context) :=
    .ok (Edit.typeAnswer interned.1, interned.2)
  have interned {types shape} (missing : shape ∉ types) :=
    congrArg answered (intern_typesOnly native missing)
  have created : let opened := after engine (start settings initial) (.createContext "m")
      opened.store.settings = settings ∧
        opened.store.context? ⟨0, 0⟩ = some (typesOnly native #[]) := ⟨rfl, rfl⟩
  have typed := edit_known engine (.voidType ⟨0, 0⟩) rfl rfl created (interned (by simp))
  have signed := edit_known engine (.signatureType ⟨⟨0, 0⟩, 0⟩ [] false) rfl rfl typed
    (interned (by simp))
  have declared := edit_known engine (.declare ⟨0, 0⟩ "f" ⟨⟨0, 0⟩, 1⟩) rfl rfl signed rfl
  simp only [declaringRun, afterAll, List.foldl_cons, List.foldl_nil]
  rw [declared.2]
  rfl

theorem conventions_told (fixed : engine.AcceptsExactly accepted) :
    ConventionsTold engine settings initial accepted := by
  constructor
  · exact convened_afterAll (fun native code allowed => .inl (fixed native code ▸ allowed))
      (.inr rfl)
  · constructor
    · intro always
      obtain ⟨context, found, functions⟩ :=
        Option.map_eq_some_iff.mp (@declaringRun_functions _ engine initial settings)
      refine always declaringRun _ context found (.declared 0 1 [] settings.convention.code) ?_
      rw [functions]
      exact List.mem_singleton_self _
    · exact convened_afterAll fun native code allowed => fixed native code ▸ allowed

/-- An engine that accepts the convention `fast` and no other. -/
def fastOnly : Engine ReferenceState := .scripted ⟨"picky", some [8], [], none⟩

/-- Under the standard settings the declared function has a convention that the engine does not
accept. -/
theorem declaringRun_unsupported :
    ((afterAll fastOnly (start .standard .start) declaringRun).store.context? ⟨0, 0⟩).map
        (fun context => context.functions.map FunctionEntry.convention) = some [0] ∧
      (∀ native code, fastOnly.accepts native code = [8].contains code) ∧
      fastOnly.accepts .start 0 = false := by
  refine ⟨by decide +kernel, fun _ _ => rfl, by decide⟩

/-- The engine keeps all conventions accepted if new functions are `fast`, but not if they are
`c`. -/
theorem fastOnly_told :
    fastOnly.AcceptsExactly [8].contains ∧
      (∀ commands, (afterAll fastOnly (start { Settings.standard with convention := .fast } .start)
        commands).Convened fun code => [8].contains code = true) ∧
      ¬ ∀ commands, (afterAll fastOnly (start .standard .start) commands).Convened fun code =>
        [8].contains code = true := by
  have fixed : fastOnly.AcceptsExactly [8].contains := fun _ _ => rfl
  refine ⟨fixed, (conventions_told fixed).supported.mpr (by decide), fun always => ?_⟩
  exact absurd ((conventions_told fixed).supported.mp always) (by decide)

end Workspace

end TypedIR
