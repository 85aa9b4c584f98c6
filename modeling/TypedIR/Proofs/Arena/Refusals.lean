import TypedIR.Proofs.Arena.Runs
import TypedIR.Proofs.Workspace.Unrecorded

/-!
Contract: refused commands leave a system as it was.

Owns:
- systems that differ in recorded verdicts on the functions of one context at most;
- that whatever a refused command has written by the time it fails, it has written nothing;
- the one exception: emission refused for its verdicts, which are recorded by then;
- the same of verification that may abort.

Nothing is written back. A fault leaves the arena as the writes before it made it, in each
of its stores.
-/

namespace TypedIR

open Arena (Contents)

/-! ### Recorded verdicts -/

namespace Arena.Contents

/-- The contents without their recorded verdicts. -/
def unrecorded (contents : Contents) : Contents :=
  { contents with bodies := contents.bodies.mapValues Body.edited }

end Arena.Contents

theorem Context.contents_unrecorded (context : Context) :
    context.unrecorded.contents = context.contents.unrecorded := by
  apply Contents.ext <;> try rfl
  · ext function : 1
    show _ = (context.contents.bodies.get? function).map _
    rw [contents_bodies, contents_bodies, function?_unrecorded, Option.map_map, Option.map_map]
    rfl
  · show (context.functions.map _).map _ = context.functions.map _
    rw [List.map_map]
    rfl
  · ext name : 1
    show (context.unrecorded.functionNamed? name).map _ = _
    rw [functionNamed?_unrecorded]
    rfl

namespace System

variable {σ : Type} {initial : ReferenceState} {workspace changed : Workspace ReferenceState}

/-- At most recorded verdicts on functions of one live context differ. -/
structure SameButVerdicts (id : ContextId) (before after : System σ) : Prop where
  native : after.native = before.native
  arena : ∃ contents changed, before.arena.contents? id = some contents ∧
    changed.unrecorded = contents.unrecorded ∧ after.arena = before.arena.put id.index changed

theorem SameButVerdicts.of_workspace {id : ContextId}
    (same : Workspace.SameButVerdicts id workspace changed) :
    SameButVerdicts id workspace.system changed.system where
  native := same.native
  arena := by
    obtain ⟨context, recorded, found, unrecorded, written⟩ := same.store
    refine ⟨context.contents, recorded.contents, ?_, ?_, ?_⟩
    · exact (Store.arena_contents? id).trans (congrArg (Option.map _) found)
    · rw [← Context.contents_unrecorded, unrecorded, Context.contents_unrecorded]
    · show changed.store.arena = workspace.store.arena.put id.index recorded.contents
      rw [written, Store.arena_put]

/-! ### Every command -/

/-- What a computation in place leaves behind when it follows an action. -/
theorem follows_refused {α : Type} {work : InPlace (System σ) α} {action : Action σ α}
    {workspace : Workspace σ} (follows : work.Follows action workspace) {fault : Fault}
    (refused : (work workspace.system).1 = .error fault) :
    (action workspace).result = .error fault ∧
      (work workspace.system).2 = (action workspace).workspace.system := by
  have run : work workspace.system = _ := follows
  rw [run] at refused
  exact ⟨refused, congrArg Prod.snd run⟩

theorem refusal_changes_nothing {system : System ReferenceState}
    (reachable : Reachable .reference initial system) :
    (∀ command fault, (Command.inPlace .reference command system).1 = .error fault →
        (Command.inPlace .reference command system).2 = system ∨
          ∃ id reasons, command = .emitModule id ∧ fault = .invalid reasons ∧
            SameButVerdicts id system (Command.inPlace .reference command system).2) ∧
      (∀ function fault, (verifyOrAbort .reference function system).1 = .error fault →
        (verifyOrAbort .reference function system).2 = system) ∧
      ∀ id fault, (verifyModuleOrAbort .reference id system).1 = .error fault →
        (verifyModuleOrAbort .reference id system).2 = system := by
  have mirrors := Arena.Engine.mirrors_reference
  obtain ⟨workspace, reached, rfl⟩ := (reachable_iff mirrors).mp reachable
  have every := reached.every_consistent
  refine ⟨?_, ?_, ?_⟩
  · intro command fault refused
    have failed := follows_refused (command.inPlace_follows mirrors every) refused
    rw [failed.2]
    rcases Workspace.after_refused reached failed.1 with
      unchanged | ⟨id, reasons, emission, invalid, recorded⟩
    · exact .inl (congrArg Workspace.system unchanged)
    · exact .inr ⟨id, reasons, emission, invalid, .of_workspace recorded⟩
  · intro function fault refused
    have failed := follows_refused (verifyOrAbort_follows mirrors every function) refused
    rw [failed.2, Workspace.verifyOrAbort_refused failed.1]
  · intro id fault refused
    have failed := follows_refused (verifyModuleOrAbort_follows mirrors every id) refused
    rw [failed.2, Workspace.verifyModuleOrAbort_refused reached failed.1]

/-- A function whose only block has no terminator and whose value is to be of type `i32`, and one
that is declared only. -/
def openRun : List Command :=
  let context : ContextId := ⟨0, 0⟩
  [.createContext "open",
    .edit (.integerType context 32),
    .edit (.signatureType ⟨context, 0⟩ [⟨context, 0⟩] false),
    .edit (.declare context "f" ⟨context, 1⟩),
    .edit (.declare context "g" ⟨context, 1⟩),
    .edit (.appendBlock ⟨context, 0⟩ "entry")]

/-- A return without a value and a rename to a name that is taken leave no trace. The emission is
refused too, and leaves its verdict behind. -/
theorem openRun_refusals :
    let system := afterAll .reference (start .standard .start) openRun
    let run := fun command : Command => command.inPlace .reference system
    (run (.edit (.ret ⟨⟨0, 0⟩, 0⟩ none))).1 = .error (.mismatch (.type "i32") .noValue) ∧
      (run (.edit (.ret ⟨⟨0, 0⟩, 0⟩ none))).2 = system ∧
      (run (.edit (.rename ⟨⟨0, 0⟩, 2⟩ "f"))).1 = .error (.duplicateName "f") ∧
      (run (.edit (.rename ⟨⟨0, 0⟩, 2⟩ "f"))).2 = system ∧
      (run (.emitModule ⟨0, 0⟩)).1 =
        .error (.invalid ["@f/entry: block is empty and has no terminator"]) ∧
      (run (.emitModule ⟨0, 0⟩)).2 ≠ system ∧
      SameButVerdicts ⟨0, 0⟩ system (run (.emitModule ⟨0, 0⟩)).2 := by
  intro system run
  have reachable : Reachable .reference .start system := ⟨.standard, openRun, rfl⟩
  have unreturned : (run (.edit (.ret ⟨⟨0, 0⟩, 0⟩ none))).1 =
      .error (.mismatch (.type "i32") .noValue) := by decide +kernel
  have taken : (run (.edit (.rename ⟨⟨0, 0⟩, 2⟩ "f"))).1 = .error (.duplicateName "f") := by
    decide +kernel
  have rejected : (run (.emitModule ⟨0, 0⟩)).1 =
      .error (.invalid ["@f/entry: block is empty and has no terminator"]) := by decide +kernel
  have record : ((run (.emitModule ⟨0, 0⟩)).2.arena.body ⟨⟨0, 0⟩, 0⟩).toOption.map
      (fun body => body.state) ≠
        (system.arena.body ⟨⟨0, 0⟩, 0⟩).toOption.map fun body => body.state := by decide +kernel
  have differs : (run (.emitModule ⟨0, 0⟩)).2 ≠ system := fun same => record (by rw [same])
  have atomic := (refusal_changes_nothing reachable).1
  refine ⟨unreturned, ?_, taken, ?_, rejected, differs, ?_⟩
  · rcases atomic _ _ unreturned with unchanged | ⟨_, _, emission, _⟩
    · exact unchanged
    · cases emission
  · rcases atomic _ _ taken with unchanged | ⟨_, _, emission, _⟩
    · exact unchanged
    · cases emission
  · rcases atomic _ _ rejected with unchanged | ⟨_, _, emission, _, recorded⟩
    · exact absurd unchanged differs
    · cases emission
      exact recorded

end System

end TypedIR
