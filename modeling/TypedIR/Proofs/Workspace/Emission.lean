import TypedIR.Proofs.Print.Total
import TypedIR.Proofs.Workspace.Judgements
import TypedIR.Proofs.Workspace.Types

/-!
Contract: when a module is written, and what.

Owns:
- the events of a sequence of actions, and that verification never has a module written;
- the gate: with the setting on, the engine is asked to write a module exactly if it holds
  none of its functions for broken, and its answer is the result; a refusal has the reasons
  of verification;
- the bytes that the reference engine writes, which are the printed module, and that it can
  write every module.

Does not own: the bytes that other engines write.
-/

namespace TypedIR

variable {σ α β : Type} {engine : Engine σ} {initial : σ} {workspace : Workspace σ}
  {id : ContextId} {context : Context}

namespace Action

/-! ### Events -/

/-- Whatever the action comes to, no engine is asked to write a module. -/
def WritesNothing (action : Action σ α) : Prop :=
  ∀ workspace id, Event.engine (.write id) ∉ (action workspace).events

theorem WritesNothing.bind {action : Action σ α} {next : α → Action σ β}
    (first : WritesNothing action) (second : ∀ value, WritesNothing (next value)) :
    WritesNothing (action >>= next) := by
  intro workspace id
  cases done : (action workspace).result with
  | error fault =>
      have stopped : ((action >>= next) workspace).events = (action workspace).events := by
        show (Action.bind action next workspace).events = _
        unfold Action.bind
        simp only [done]
      rw [stopped]
      exact first workspace id
  | ok value =>
      rw [outcome_bind done, List.mem_append]
      intro written
      cases written with
      | inl earlier => exact first workspace id earlier
      | inr later => exact second value _ id later

theorem writesNothing_verify (function : FunctionId) : WritesNothing (verify engine function) := by
  intro workspace id
  unfold verify
  cases workspace.store.read function.context fun context => context.functionName function with
  | error fault => simp
  | ok name => simp [Event.debug]

theorem writesNothing_verifyEach (functions : List FunctionId) :
    WritesNothing (verifyEach engine functions) := by
  induction functions with
  | nil => exact fun _ _ => List.not_mem_nil
  | cons function rest inductionHypothesis =>
      apply (writesNothing_verify function).bind
      intro verdict
      apply inductionHypothesis.bind
      intro reasons _ _
      exact List.not_mem_nil

theorem writesNothing_verifyModule (id : ContextId) : WritesNothing (verifyModule engine id) := by
  have asks : WritesNothing (inspect (functionsOf id) : Action σ (List FunctionId)) :=
    fun _ _ => List.not_mem_nil
  apply asks.bind
  intro functions
  apply (writesNothing_verifyEach functions).bind
  intro reasons _ _
  exact List.not_mem_nil

/-! ### Emission by its verdict -/

section Gated

variable (gated : workspace.store.settings.verifyBeforeEmit = true)

include gated

/-- A module with a favourable verdict is written, as it is after verification. -/
theorem emitModule_of_valid
    (valid : (verifyModule engine id workspace).result = .ok .valid) :
    emitModule engine id workspace =
      ⟨engine.write (verifyModule engine id workspace).workspace.native
          (verifyModule engine id workspace).workspace.store id,
        (verifyModule engine id workspace).workspace,
        (verifyModule engine id workspace).events ++ [.engine (.write id)]⟩ := by
  unfold emitModule
  rw [bind_settings, if_pos gated, outcome_bind valid]
  rfl

/-- A module with a verdict against it is refused with the reasons, after the same events. -/
theorem emitModule_of_invalid {reasons : List String}
    (invalid : (verifyModule engine id workspace).result = .ok (.invalid reasons)) :
    emitModule engine id workspace =
      ⟨.error (.invalid reasons), (verifyModule engine id workspace).workspace,
        (verifyModule engine id workspace).events⟩ := by
  unfold emitModule
  rw [bind_settings, if_pos gated, outcome_bind invalid]
  show (⟨_, _, (verifyModule engine id workspace).events ++ []⟩ : Outcome σ (List UInt8)) = _
  rw [List.append_nil]
  rfl

end Gated

/-- Whatever was emitted, the engine wrote it in the workspace that emission leaves. -/
theorem write_of_emitModule {bytes : List UInt8}
    (done : (emitModule engine id workspace).result = .ok bytes) :
    engine.write (emitModule engine id workspace).workspace.native
        (emitModule engine id workspace).workspace.store id = .ok bytes ∧
      (emitModule engine id workspace).workspace.store.unrecorded =
        workspace.store.unrecorded := by
  by_cases gated : workspace.store.settings.verifyBeforeEmit = true
  · cases verified : (verifyModule engine id workspace).result with
    | error fault =>
        have refused : (emitModule engine id workspace).result = .error fault := by
          unfold emitModule
          rw [bind_settings, if_pos gated]
          exact (bind_of_error verified).1
        cases refused.symm.trans done
    | ok verdict =>
        cases verdict with
        | valid =>
            rw [emitModule_of_valid gated verified] at done ⊢
            exact ⟨done, (unrecorded_verifyModule id).1⟩
        | invalid reasons =>
            rw [emitModule_of_invalid gated verified] at done
            cases done
  · rw [emitModule_ungated gated] at done ⊢
    exact ⟨done, rfl⟩

end Action

namespace Workspace

/-- The engine holds no function of the context for broken. -/
def NoneBroken (engine : Engine σ) (workspace : Workspace σ) (context : Context) : Prop :=
  ∀ entry ∈ context.functions,
    (engine.verify workspace.native workspace.store (context.functionId entry.self)).broken = false

theorem noneBroken_iff :
    workspace.NoneBroken engine context ↔
      Verdict.ofReasons ((workspace.verdicts engine context).flatMap Verdict.reasons) =
        .valid := by
  rw [ofReasons_eq_valid]
  unfold NoneBroken verdicts
  rw [List.forall_mem_map]
  exact forall₂_congr fun entry _ => Verdict.ofJudgement_eq_valid.symm

/-- The bytes of the reference engine are the printed module, which is the same before and after
emission. -/
theorem reference_bytes {workspace : Workspace ReferenceState} {bytes : List UInt8}
    (done : (Action.emitModule Engine.reference id workspace).result = .ok bytes) :
    ∃ text, workspace.store.moduleText id = .ok text ∧
      (Action.emitModule Engine.reference id workspace).workspace.store.moduleText id = .ok text ∧
      bytes = text.toUTF8.toList := by
  obtain ⟨written, same⟩ := Action.write_of_emitModule done
  obtain ⟨text, printed, encoded⟩ := bind_eq_ok.mp written
  have before : workspace.store.moduleText id = .ok text :=
    (Store.read_of_unrecorded_eq (fun _ => Context.moduleText_unrecorded) same.symm id).trans printed
  exact ⟨text, before, printed, (pure_eq_ok.mp encoded).symm⟩

/-- The module of a live context can be printed. -/
theorem Reachable.moduleText (reachable : Reachable engine initial workspace)
    (found : workspace.store.context? id = some context) :
    ∃ text, workspace.store.moduleText id = .ok text := by
  obtain ⟨text, printed⟩ :=
    Context.moduleText_succeeds (reachable.canonical found) (reachable.coherent found).2
  exact ⟨text, bind_eq_ok.mpr ⟨context, Store.resolve_eq_ok.mpr found, printed⟩⟩

/-- Emission of a module that has a printed text and a favourable verdict succeeds with it. -/
theorem emitModule_reference {workspace : Workspace ReferenceState} {text : String}
    (gated : workspace.store.settings.verifyBeforeEmit = true)
    (valid : (Action.verifyModule Engine.reference id workspace).result = .ok .valid)
    (printed : workspace.store.moduleText id = .ok text) :
    (Action.emitModule Engine.reference id workspace).result = .ok text.toUTF8.toList := by
  have same : (Action.verifyModule Engine.reference id workspace).workspace.store.moduleText id =
      .ok text := by
    refine (Store.read_of_unrecorded_eq (fun _ => Context.moduleText_unrecorded) ?_ id).trans printed
    exact (Action.unrecorded_verifyModule id).1
  rw [Action.emitModule_of_valid gated valid]
  exact bind_eq_ok.mpr ⟨text, same, rfl⟩

/-- The engine writes exactly the modules none of whose functions it holds for broken, and its
answer is the result. All other modules are refused with the reasons of their verification. The
reference engine writes the printed module. -/
theorem emission_gate (ignores : engine.IgnoresRecords)
    (reachable : Reachable engine initial workspace)
    (found : workspace.store.context? id = some context)
    (gated : workspace.store.settings.verifyBeforeEmit = true) :
    (Event.engine (.write id) ∈ (Action.emitModule engine id workspace).events ↔
        workspace.NoneBroken engine context) ∧
      (workspace.NoneBroken engine context →
        (Action.verifyModule engine id workspace).result = .ok .valid ∧
          (Action.emitModule engine id workspace).workspace =
            (Action.verifyModule engine id workspace).workspace ∧
          (Action.emitModule engine id workspace).result =
            engine.write (Action.verifyModule engine id workspace).workspace.native
              (Action.verifyModule engine id workspace).workspace.store id) ∧
      (¬ workspace.NoneBroken engine context → ∃ reasons,
        (Action.verifyModule engine id workspace).result = .ok (.invalid reasons) ∧
          (Action.emitModule engine id workspace).result = .error (.invalid reasons) ∧
          ∀ other, Event.engine (.write other) ∉
            (Action.emitModule engine id workspace).events) ∧
      ∀ (initial : ReferenceState) (workspace : Workspace ReferenceState) (id : ContextId)
        (context : Context), Reachable Engine.reference initial workspace →
        workspace.store.context? id = some context →
        (workspace.store.settings.verifyBeforeEmit = true →
          workspace.NoneBroken Engine.reference context →
            ∃ bytes, (Action.emitModule Engine.reference id workspace).result = .ok bytes) ∧
        ∀ bytes, (Action.emitModule Engine.reference id workspace).result = .ok bytes → ∃ text,
          workspace.store.moduleText id = .ok text ∧
            (Action.emitModule Engine.reference id workspace).workspace.store.moduleText id =
              .ok text ∧
            bytes = text.toUTF8.toList := by
  obtain ⟨result, _⟩ := reachable.verifyModule ignores found
  have silent := @Action.writesNothing_verifyModule _ engine id workspace
  rw [noneBroken_iff]
  refine ⟨?_, ?_, ?_, ?_⟩
  · cases verdict : Verdict.ofReasons
        ((workspace.verdicts engine context).flatMap Verdict.reasons) with
    | valid =>
        rw [verdict] at result
        rw [Action.emitModule_of_valid gated result]
        exact iff_of_true (List.mem_append_right _ List.mem_cons_self) rfl
    | invalid reasons =>
        rw [verdict] at result
        rw [Action.emitModule_of_invalid gated result]
        exact iff_of_false (silent id) fun equal => by cases equal
  · intro sound
    rw [sound] at result
    rw [Action.emitModule_of_valid gated result]
    exact ⟨result, rfl, rfl⟩
  · intro broken
    rw [Verdict.ofReasons_eq_invalid broken] at result
    refine ⟨_, result, ?_, ?_⟩
    · rw [Action.emitModule_of_invalid gated result]
    · rw [Action.emitModule_of_invalid gated result]
      exact silent
  · intro _ workspace id context reachable found
    refine ⟨fun gated sound => ?_, fun _ => reference_bytes⟩
    obtain ⟨valid, _⟩ := reachable.verifyModule Engine.reference_ignoresRecords found
    rw [noneBroken_iff.mp sound] at valid
    obtain ⟨text, printed⟩ := reachable.moduleText found
    exact ⟨_, emitModule_reference gated valid printed⟩

/-- The module of the sample run as it is printed. -/
def sampleText : String :=
  "; ModuleID = 'sample'\nsource_filename = \"sample\"\n\n" ++
    "define i32 @f(i32 %0) \x7b\nentry:\n  %sum = add i32 %0, %0\n  br label %next\n\n" ++
    "next:\n  ret i32 %sum\n\x7d\n"

/-- An empty message withholds a module as well as any other. A module that verifies is printed. -/
theorem gatedRuns_emitted :
    let broken := afterAll (.scripted rejectingScript) (start .standard .start) declaredRun
    let sound := afterAll Engine.reference (start .standard .start) sampleRun
    ((Action.emitModule (.scripted rejectingScript) ⟨0, 0⟩ broken).result =
          .error (.invalid ["@f: rejected by the scripted engine", "first", "second"]) ∧
        ∀ other, Event.engine (.write other) ∉
          (Action.emitModule (.scripted rejectingScript) ⟨0, 0⟩ broken).events) ∧
      Event.engine (.write ⟨0, 0⟩) ∈ (Action.emitModule Engine.reference ⟨0, 0⟩ sound).events ∧
      (Action.emitModule Engine.reference ⟨0, 0⟩ sound).result = .ok sampleText.toUTF8.toList := by
  intro broken sound
  constructor
  · have live : (broken.store.context? ⟨0, 0⟩).isSome := by decide +kernel
    have silent : Event.engine (.write ⟨0, 0⟩) ∉
        (Action.emitModule (.scripted rejectingScript) ⟨0, 0⟩ broken).events := by
      decide +kernel
    have rejected : (Action.verifyModule (.scripted rejectingScript) ⟨0, 0⟩ broken).result =
        .ok (.invalid ["@f: rejected by the scripted engine", "first", "second"]) := by
      decide +kernel
    obtain ⟨context, found⟩ := Option.isSome_iff_exists.mp live
    obtain ⟨asked, _, refused, _⟩ := emission_gate (Engine.scripted_ignoresRecords rejectingScript)
      ⟨.standard, declaredRun, rfl⟩ found (by decide +kernel)
    obtain ⟨reasons, verified, withheld, unwritten⟩ :=
      refused fun passes => silent (asked.mpr passes)
    have same : Verdict.invalid reasons = _ := Except.ok.inj (verified.symm.trans rejected)
    rw [Verdict.invalid.inj same] at withheld
    exact ⟨withheld, unwritten⟩
  · have live : (sound.store.context? ⟨0, 0⟩).isSome := by decide +kernel
    have asks : Event.engine (.write ⟨0, 0⟩) ∈
        (Action.emitModule Engine.reference ⟨0, 0⟩ sound).events := by
      decide +kernel
    have printed : sound.store.moduleText ⟨0, 0⟩ = .ok sampleText := by decide +kernel
    obtain ⟨context, found⟩ := Option.isSome_iff_exists.mp live
    have reachable : Reachable Engine.reference .start sound := ⟨.standard, sampleRun, rfl⟩
    have gated : sound.store.settings.verifyBeforeEmit = true := by decide +kernel
    obtain ⟨asked, _, _, reference⟩ :=
      emission_gate Engine.reference_ignoresRecords reachable found gated
    obtain ⟨succeeds, told⟩ := reference .start sound _ context reachable found
    obtain ⟨bytes, done⟩ := succeeds gated (asked.mp asks)
    obtain ⟨text, shown, _, rfl⟩ := told bytes done
    rw [Except.ok.inj (shown.symm.trans printed)] at done
    exact ⟨asks, done⟩

end Workspace

end TypedIR
