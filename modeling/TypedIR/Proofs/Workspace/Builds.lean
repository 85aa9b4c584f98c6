import TypedIR.Proofs.Description.Modules
import TypedIR.Proofs.Workspace.Constructions
import TypedIR.Proofs.Workspace.Dead

/-!
Contract: building descriptions in a workspace.

Owns:
- what a build comes to, by its construction in a context of its own;
- that a description is built exactly if it is accepted, and that the context then holds
  its module.
-/

namespace TypedIR

open Description Construction

namespace Workspace

variable {σ : Type} {engine : Engine σ} {initial : σ} {workspace : Workspace σ}
  {description : Module}

/-! ### A build and its construction -/

/-- The workspace in which a build constructs, and the context that it has created there. -/
def opened (engine : Engine σ) (description : Module) (workspace : Workspace σ) : Workspace σ :=
  (Action.createContext engine description.name workspace).workspace

def openedId (engine : Engine σ) (description : Module) (workspace : Workspace σ) : ContextId :=
  (workspace.store.create (engine.create workspace.native).1 description.name).1

/-- The construction inside a build. -/
def constructed (engine : Engine σ) (description : Module) (workspace : Workspace σ) :
    Outcome σ (Except BuildFault Unit) :=
  construct (openedId engine description workspace)
    (populate (termsOf engine (opened engine description workspace)) description)
    (opened engine description workspace)

/-- What a build does when its construction has come to an end. -/
def concluded (engine : Engine σ) (id : ContextId) :
    Except BuildFault Unit → Action σ (Except BuildFault ContextId)
  | .ok () => pure (.ok id)
  | .error fault => Action.destroyContext engine id >>= fun _ => pure (.error fault)

/-- A build ends as its construction does. -/
theorem build_of_constructed {result : Except BuildFault Unit}
    (done : (constructed engine description workspace).result = .ok result) :
    build engine description workspace =
      ⟨(concluded engine (openedId engine description workspace) result
          (constructed engine description workspace).workspace).result,
        (concluded engine (openedId engine description workspace) result
          (constructed engine description workspace).workspace).workspace,
        (Action.createContext engine description.name workspace).events ++
          ((constructed engine description workspace).events ++
            (concluded engine (openedId engine description workspace) result
              (constructed engine description workspace).workspace).events)⟩ := by
  -- Creation and the look at the engine always succeed.
  have opening : ∀ rest, rest = (construct (openedId engine description workspace)
      (populate (termsOf engine (opened engine description workspace)) description) >>=
        concluded engine (openedId engine description workspace))
          (opened engine description workspace) →
      build engine description workspace = ⟨rest.result, rest.workspace,
        (Action.createContext engine description.name workspace).events ++ rest.events⟩ := by
    rintro _ rfl
    rfl
  exact opening _ (Action.outcome_bind done).symm

/-- A live context is always destroyed. -/
theorem destroyContext_live {id : ContextId} {context : Context}
    (found : workspace.store.context? id = some context) :
    (Action.destroyContext engine id workspace).result = .ok () := by
  obtain ⟨after, done⟩ := Store.destroy_of_live found
  unfold Action.destroyContext
  rw [done]

section Accepting

variable (reachable : Reachable engine initial workspace)
  (accepts : ∀ native (convention : CallConvention), engine.accepts native convention.code = true)

include reachable accepts

/-- The construction inside a build goes step by step from an empty context, and succeeds exactly if
the description is accepted. -/
theorem Reachable.constructed_cases (description : Module) :
    ∃ after, (opened engine description workspace).store.context?
          (openedId engine description workspace) =
        some (.empty (openedId engine description workspace)
          (engine.create workspace.native).1 description.name) ∧
      (constructed engine description workspace).workspace =
        { opened engine description workspace with
          store := (opened engine description workspace).store.put
            (openedId engine description workspace).index after } ∧
      Steps (termsOf engine (opened engine description workspace))
        (.empty (openedId engine description workspace) (engine.create workspace.native).1
          description.name) after ∧
      ((∃ value, (constructed engine description workspace).result = .ok (.ok value) ∧
          description.Accepted workspace.store.settings.maxIntegerWidth ∧
          description.Built workspace.store.settings after) ∨
        ∃ fault, (constructed engine description workspace).result = .ok (.error fault) ∧
          ¬ description.Accepted workspace.store.settings.maxIntegerWidth) := by
  have found : (opened engine description workspace).store.context?
      (openedId engine description workspace) = some (.empty (openedId engine description workspace)
        (engine.create workspace.native).1 description.name) :=
    reachable.sound.context?_created _ _
  have settings : (termsOf engine (opened engine description workspace)).settings =
      workspace.store.settings := Store.settings_create
  have drafted := Context.drafted_empty workspace.store.settings
    (openedId engine description workspace) (engine.create workspace.native).1 description.name
  rw [← settings] at drafted ⊢
  have meets := @populate_meets _ description _ (accepts _) drafted rfl rfl
  obtain ⟨after, left, steps, came⟩ := construct_cases meets found
  exact ⟨after, found, left, steps, came⟩

/-- With an engine that accepts the conventions that have a name, a description is built if it is
accepted, and refused if it is not. -/
theorem Reachable.build_cases (description : Module) :
    (∃ id context, (build engine description workspace).result = .ok (.ok id) ∧
        (build engine description workspace).workspace.store.context? id = some context ∧
        description.Accepted workspace.store.settings.maxIntegerWidth ∧
        description.Built workspace.store.settings context) ∨
      ∃ fault, (build engine description workspace).result = .ok (.error fault) ∧
        ¬ description.Accepted workspace.store.settings.maxIntegerWidth := by
  obtain ⟨after, found, left, _, came⟩ := reachable.constructed_cases accepts description
  have lives : (constructed engine description workspace).workspace.store.context?
      (openedId engine description workspace) = some after := by
    rw [left]
    exact (Store.context?_put found).trans (if_pos rfl)
  rcases came with ⟨_, done, isAccepted, built⟩ | ⟨fault, done, refused⟩
  · rw [build_of_constructed done]
    exact .inl ⟨_, after, rfl, lives, isAccepted, built⟩
  · rw [build_of_constructed done]
    exact .inr ⟨fault, Action.result_bind (destroyContext_live lives), refused⟩

/-- A build leads to nothing that a client could not have reached command by command. -/
theorem Reachable.build (description : Module) :
    Reachable engine initial (Description.build engine description workspace).workspace := by
  obtain ⟨after, found, left, steps, came⟩ := reachable.constructed_cases accepts description
  have inside : Reachable engine initial (constructed engine description workspace).workspace := by
    obtain ⟨commands, reached⟩ := steps.commands found rfl
    rw [left, ← reached]
    exact (reachable.after_command (.createContext description.name)).after_commands commands
  rcases came with ⟨_, done, _⟩ | ⟨fault, done, _⟩
  · rw [build_of_constructed done]
    exact inside
  · have gone := inside.after_command
      (.destroyContext (openedId engine description workspace))
    rw [after_destroyContext] at gone
    have quiet : (concluded engine (openedId engine description workspace) (.error fault)
        (constructed engine description workspace).workspace).workspace =
          (Action.destroyContext engine (openedId engine description workspace)
            (constructed engine description workspace).workspace).workspace :=
      Action.workspace_bind_quiet (fun _ _ => rfl) _
    rw [build_of_constructed done]
    show Reachable engine initial (concluded _ _ _ _).workspace
    rw [quiet]
    exact gone

end Accepting

/-! ### Builds with the reference engine -/

theorem reference_accepts (native : ReferenceState) (convention : CallConvention) :
    Engine.reference.accepts native convention.code = true := by
  cases convention <;> rfl

variable {initial : ReferenceState} {workspace : Workspace ReferenceState}

/-- A built context holds the described module. -/
theorem build_mirrors (reachable : Reachable Engine.reference initial workspace)
    {id : ContextId}
    (built : (build Engine.reference description workspace).result = .ok (.ok id)) :
    ∃ context,
      (build Engine.reference description workspace).workspace.store.context? id = some context ∧
        description.Built workspace.store.settings context := by
  rcases reachable.build_cases reference_accepts description with
    ⟨other, context, done, lives, _, holds⟩ | ⟨fault, done, _⟩
  · obtain rfl := Except.ok.inj (Except.ok.inj (done.symm.trans built))
    exact ⟨context, lives, holds⟩
  · cases Except.ok.inj (done.symm.trans built)

/-- The larger of two numbers, after a call of a function that is described later. A name is given
twice, and an attribute replaces an alignment. -/
def maxModule : Module where
  name := "maxmod"
  functions :=
    [{ name := "max"
       result := .integer 32
       parameters := [⟨"a", .integer 32, some 4⟩, ⟨"b", .integer 32, none⟩]
       variadic := false
       convention := some .fast
       collector := some ""
       personality := some "@log_value"
       attributes := [⟨.parameter 0, .enumerated .alignment 8⟩]
       blocks :=
         [⟨"entry",
            [.compare .sgt (.reference "%a") (.reference "%b") "c",
              .condBranch (.reference "%c") "left" "%right"]⟩,
          ⟨"left",
            [.call "log_value" [.reference "%a"] "",
              .binary .add (.reference "%a") (.integer 0 (.integer 32)) "a",
              .ret (some (.reference "%a"))]⟩,
          ⟨"right", [.ret (some (.reference "%b"))]⟩] },
     { name := "log_value"
       result := .void
       parameters := [⟨"", .integer 32, none⟩]
       variadic := true
       convention := none
       collector := none
       personality := none
       attributes := []
       blocks := [] }]

theorem maxModule_built :
    (build Engine.reference maxModule (start .standard .start)).result = .ok (.ok ⟨0, 0⟩) := by
  decide +kernel

theorem maxModule_mirrored : ∃ context,
    (build Engine.reference maxModule (start .standard .start)).workspace.store.context? ⟨0, 0⟩ =
        some context ∧ maxModule.Built .standard context :=
  build_mirrors ⟨.standard, [], rfl⟩ maxModule_built

/-- A description is built exactly if it is well scoped and well typed. -/
theorem built_iff_accepted (reachable : Reachable Engine.reference initial workspace)
    (description : Module) :
    (∃ id, (build Engine.reference description workspace).result = .ok (.ok id)) ↔
      description.Accepted workspace.store.settings.maxIntegerWidth := by
  rcases reachable.build_cases reference_accepts description with
    ⟨id, _, done, _, isAccepted, _⟩ | ⟨fault, done, refused⟩
  · exact iff_of_true ⟨id, done⟩ isAccepted
  · refine iff_of_false ?_ refused
    rintro ⟨id, built⟩
    cases Except.ok.inj (done.symm.trans built)

/-- A function that returns a name nobody has given. -/
def missingLocal : Module where
  name := "module"
  functions :=
    [{ name := "f"
       result := .integer 32
       parameters := []
       variadic := false
       convention := none
       collector := none
       personality := none
       attributes := []
       blocks := [⟨"entry", [.ret (some (.reference "%missing"))]⟩] }]

theorem maxModule_accepted : maxModule.Accepted maxWidth ∧ ¬ missingLocal.Accepted maxWidth := by
  have reachable : Reachable Engine.reference .start (start .standard .start) := ⟨.standard, [], rfl⟩
  refine ⟨(built_iff_accepted reachable maxModule).mp ⟨_, maxModule_built⟩, fun isAccepted => ?_⟩
  obtain ⟨id, built⟩ := (built_iff_accepted reachable missingLocal).mpr isAccepted
  have refused : (build Engine.reference missingLocal (start .standard .start)).result =
      .ok (.error ⟨[.function "f", .block "entry"], .unknownLocal "missing"⟩) := by
    decide +kernel
  cases Except.ok.inj (refused.symm.trans built)

end Workspace

end TypedIR
