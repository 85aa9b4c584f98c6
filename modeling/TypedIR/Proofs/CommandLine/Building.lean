import TypedIR.Proofs.CommandLine.Scripts
import TypedIR.Proofs.Workspace.Builds
import TypedIR.Proofs.Workspace.Emission

/-!
Contract: a run that builds a module from its description, up to the point where it is judged.

Owns:
- what verification and emission of a live module come to, with an abort and without one;
- the settings that a run loads, and runs that load none;
- builds that come to a module, with all that led to it, and the runs of the others;
- what the log has been given by then.

Does not own: what becomes of the module.
-/

namespace TypedIR

/-! ### Live modules -/

namespace Action

variable {workspace : Workspace ReferenceState} {id : ContextId} {context : Context}

/-- A look at the store leaves no trace. -/
theorem bind_inspect {α β : Type} {query : Store → Except Fault α} {value : α}
    (found : query workspace.store = .ok value) (next : α → Action ReferenceState β) :
    (inspect query >>= next) workspace = next value workspace := by
  have done : (inspect query workspace).result = .ok value := found
  rw [outcome_bind done]
  rfl

theorem verifyModuleOrAbort_live (found : workspace.store.context? id = some context) :
    verifyModuleOrAbort Engine.reference id workspace =
      (verifyModule Engine.reference id >>= settle (.module context.moduleName)) workspace := by
  have named : (workspace.store.read id fun home => .ok home.moduleName) =
      .ok context.moduleName :=
    bind_eq_ok.mpr ⟨context, Store.resolve_eq_ok.mpr found, rfl⟩
  exact bind_inspect named _

theorem verifyModuleOrAbort_of_valid (found : workspace.store.context? id = some context)
    (valid : (verifyModule Engine.reference id workspace).result = .ok .valid) :
    verifyModuleOrAbort Engine.reference id workspace =
      ⟨.ok (.ok .valid), (verifyModule Engine.reference id workspace).workspace,
        (verifyModule Engine.reference id workspace).events⟩ := by
  rw [verifyModuleOrAbort_live found, outcome_bind valid]
  show (⟨_, _, (verifyModule Engine.reference id workspace).events ++ []⟩ : Outcome _ _) = _
  rw [List.append_nil]
  rfl

theorem verifyModuleOrAbort_of_invalid {reasons : List String}
    (found : workspace.store.context? id = some context)
    (invalid : (verifyModule Engine.reference id workspace).result = .ok (.invalid reasons)) :
    (verifyModuleOrAbort Engine.reference id workspace).result =
      .ok (.error ⟨.module context.moduleName, reasons⟩) := by
  rw [verifyModuleOrAbort_live found, outcome_bind invalid]
  rfl

theorem moduleText_of_unrecorded_eq {first second : Store}
    (same : first.unrecorded = second.unrecorded) (id : ContextId) :
    first.moduleText id = second.moduleText id :=
  Store.read_of_unrecorded_eq (fun _ => Context.moduleText_unrecorded) same id

/-- A module with a favourable verdict is emitted as it is printed, whether or not emission verifies
it once more. -/
theorem emitModule_of_printed {text : String}
    (valid : (verifyModule Engine.reference id workspace).result = .ok .valid)
    (printed : workspace.store.moduleText id = .ok text) :
    (emitModule Engine.reference id workspace).result = .ok text.toUTF8.toList := by
  by_cases gated : workspace.store.settings.verifyBeforeEmit = true
  · rw [emitModule_of_valid gated valid]
    have same := (@unrecorded_verifyModule _ Engine.reference workspace id).1
    exact bind_eq_ok.mpr ⟨text, (moduleText_of_unrecorded_eq same id).trans printed, rfl⟩
  · rw [emitModule_ungated gated]
    exact bind_eq_ok.mpr ⟨text, printed, rfl⟩

end Action

namespace CommandLine

variable {libraries : Libraries} {directory : Directory} {path : Option String}
  {options : BuildOptions}

/-! ### Settings -/

/-- The settings that a run loads, from a file or the standard ones. -/
def Libraries.loadSettings (libraries : Libraries) (directory : Directory) :
    Option String → Option Settings
  | none => some .standard
  | some path => do
      let content ← (directory.read path).toOption
      let json ← libraries.readJson content
      (Settings.read json).toOption

/-- A task is run with the settings, or nothing is done if there are none. -/
theorem runIn_runTask (libraries : Libraries) (directory : Directory) (path : Option String)
    (script : Settings → Script Unit) :
    (∃ settings, libraries.loadSettings directory path = some settings ∧
        (libraries.runTask path script).runIn directory =
          (withSettings settings (script settings)).runIn directory) ∨
      libraries.loadSettings directory path = none ∧ ∃ notices,
        (libraries.runTask path script).runIn directory =
          ⟨.code 1, "", notices, directory⟩ := by
  cases path with
  | none => exact .inl ⟨.standard, rfl, rfl⟩
  | some path =>
      unfold Libraries.runTask Libraries.loadSettings
      dsimp only
      rw [Interaction.runIn_readFile]
      cases directory.read path with
      | error fault => exact .inr ⟨rfl, _, rfl⟩
      | ok content =>
          rw [Except.toOption, Option.bind_eq_bind, Option.bind_some]
          dsimp only
          cases libraries.readJson content with
          | none => exact .inr ⟨rfl, _, rfl⟩
          | some json =>
              rw [Option.bind_eq_bind, Option.bind_some, Option.map_some]
              cases Settings.read json with
              | error fault => cases fault <;> exact .inr ⟨rfl, _, rfl⟩
              | ok settings => exact .inl ⟨settings, rfl, rfl⟩

/-- The first events of a run. -/
def openingEvents : List Event := [.debug (Action.openingText Engine.reference)]

theorem runIn_withSettings {settings : Settings} {script : Script Unit} :
    (withSettings settings script).runIn directory =
      ((script (.start settings .start) fun _ _ => .finish (.code 0)).runIn
        directory).behind "" (logged openingEvents) :=
  Script.passes_log openingEvents fun _ bench =>
    script bench fun _ _ => .finish (.code 0)

/-! ### Builds -/

/-- What becomes of a module that was built. -/
def Libraries.conclude (libraries : Libraries) (options : BuildOptions) (module : String)
    (id : ContextId) : Script Unit := do
  let verdict ← judge options.abortOnInvalid id
  libraries.emit options id verdict
  requireValid module id verdict

/-- The settings, the description and the build that lead to a module. -/
structure Building (libraries : Libraries) (directory : Directory) (path : Option String)
    (options : BuildOptions) where
  settings : Settings
  content : String
  description : Description.Module
  id : ContextId
  loaded : libraries.loadSettings directory path = some settings
  read : directory.read options.input = .ok content
  parsed : libraries.readJson content >>= Description.Module.ofJson? = some description
  built : (Description.build Engine.reference description (.start settings .start)).result =
    .ok (.ok id)

/-- A run builds one module at most. -/
instance : Subsingleton (Building libraries directory path options) where
  allEq first second := by
    obtain ⟨settings, content, description, id, loaded, read, parsed, built⟩ := first
    obtain ⟨_, _, _, _, otherLoaded, otherRead, otherParsed, otherBuilt⟩ := second
    obtain rfl := Option.some.inj (loaded.symm.trans otherLoaded)
    obtain rfl := Except.ok.inj (read.symm.trans otherRead)
    obtain rfl := Option.some.inj (parsed.symm.trans otherParsed)
    obtain rfl := Except.ok.inj (Except.ok.inj (built.symm.trans otherBuilt))
    rfl

namespace Building

/-- The build itself. -/
def outcome (building : Building libraries directory path options) :
    Outcome ReferenceState (Except Description.BuildFault ContextId) :=
  Description.build Engine.reference building.description (.start building.settings .start)

/-- The workspace with the module. -/
def bench (building : Building libraries directory path options) : Bench := building.outcome.workspace

/-- The events of the run until the module is there. -/
def events (building : Building libraries directory path options) : List Event :=
  openingEvents ++ (building.outcome.events ++
    [.log ⟨.info, "Built module '" ++ building.description.name ++ "' from " ++ options.input⟩])

variable (building : Building libraries directory path options)

theorem reachable : Workspace.Reachable Engine.reference .start building.bench :=
  Workspace.Reachable.build ⟨building.settings, [], rfl⟩ Workspace.reference_accepts
    building.description

theorem live : ∃ context, building.bench.store.context? building.id = some context := by
  have start : Workspace.Reachable Engine.reference ReferenceState.start
      (.start building.settings .start) := ⟨building.settings, [], rfl⟩
  rcases start.build_cases Workspace.reference_accepts building.description with
    ⟨id, context, done, found, _⟩ | ⟨fault, failed, _⟩
  · obtain rfl := Except.ok.inj (Except.ok.inj (done.symm.trans building.built))
    exact ⟨context, found⟩
  · cases Except.ok.inj (failed.symm.trans building.built)

/-- All functions of the module verify. -/
def Verifies : Prop :=
  ∃ functions, Action.functionsOf building.id building.bench.store = .ok functions ∧
    ∀ function ∈ functions,
      (Action.verify Engine.reference function building.bench).result = .ok .valid

end Building

theorem quits_build {settings : Settings}
    (unbuilt : ∀ content description id, directory.read options.input = .ok content →
      libraries.readJson content >>= Description.Module.ofJson? = some description →
      (Description.build Engine.reference description (.start settings .start)).result ≠
        .ok (.ok id)) :
    Script.Quits (.start settings .start) directory (.code 1) (libraries.build options) := by
  unfold Libraries.build
  cases read : directory.read options.input with
  | error fault => exact (Script.quits_readFile read).bind
  | ok content =>
      apply (Script.passes_readFile read).bind_quits
      cases parsed : libraries.readJson content >>= Description.Module.ofJson? with
      | none => exact Script.quits_fail _
      | some description =>
          have start : Workspace.Reachable Engine.reference ReferenceState.start
              (.start settings .start) := ⟨settings, [], rfl⟩
          rcases start.build_cases Workspace.reference_accepts description with
            ⟨id, _, built, _⟩ | ⟨fault, failed, _⟩
          · exact absurd built (unbuilt content description id read parsed)
          · exact (Script.passes_act failed).bind_quits (Script.quits_fail _)

/-- A run without a module ends with an error, and delivers nothing. -/
theorem runIn_unbuilt (unbuilt : IsEmpty (Building libraries directory path options)) :
    ∃ notices, (libraries.runTask path fun _ => libraries.build options).runIn directory =
      ⟨.code 1, "", notices, directory⟩ := by
  rcases runIn_runTask libraries directory path fun _ => libraries.build options with
    ⟨settings, loaded, same⟩ | ⟨_, failed⟩
  · have quits : Script.Quits (.start settings .start) directory (.code 1)
        (libraries.build options) :=
      quits_build fun content description id read parsed built =>
        unbuilt.false ⟨settings, content, description, id, loaded, read, parsed, built⟩
    obtain ⟨notices, ends⟩ := quits
    rw [same, runIn_withSettings, ends]
    exact ⟨_, rfl⟩
  · exact failed

/-- A build that comes to a module goes on with it. -/
theorem runIn_building (building : Building libraries directory path options) :
    (libraries.runTask path fun _ => libraries.build options).runIn directory =
      ((libraries.conclude options building.description.name building.id building.bench
        fun _ _ => .finish (.code 0)).runIn directory).behind "" (logged building.events) := by
  rcases runIn_runTask libraries directory path fun _ => libraries.build options with
    ⟨settings, loaded, same⟩ | ⟨unloaded, _⟩
  · obtain rfl := Option.some.inj (loaded.symm.trans building.loaded)
    rw [same, runIn_withSettings]
    unfold Libraries.build
    rw [(Script.passes_readFile building.read).runIn_bind]
    dsimp only
    rw [building.parsed]
    dsimp only
    rw [(Script.passes_act building.built).runIn_bind]
    dsimp only
    rw [(Script.passes_log _).runIn_bind]
    simp only [Transcript.behind_behind, String.empty_append]
    rw [Building.events, logged_append, logged_append]
    rfl
  · cases unloaded.symm.trans building.loaded

end CommandLine

end TypedIR
