import TypedIR.Engine.Reference
import TypedIR.Proofs.Types.Operands
import TypedIR.Proofs.Types.Tree
import TypedIR.Proofs.Workspace.Reachable
import TypedIR.Workspace.Query

/-!
Contract: types in every reachable workspace, and the instructions that are typed by them.

Owns:
- the invariant of the table of types in all live contexts, for every engine;
- that every type of a live context is written, as its tree is;
- the typing of every live instruction, whatever has happened to its operands and its
  callee since it was appended.
-/

namespace TypedIR.Workspace

variable {σ : Type} {engine : Engine σ} {initial : σ} {workspace : Workspace σ}

theorem keptBy_canonical (engine : Engine σ) (settings : Settings) :
    KeptBy engine settings (fun _ effect => effect.IsEdit) (Context.Canonical settings) :=
  keptBy_of_step engine (Context.canonical_empty settings) fun canonical change =>
    canonical.step change

theorem Reachable.canonical (reachable : Reachable engine initial workspace) {id : ContextId}
    {context : Context} (found : workspace.store.context? id = some context) :
    context.Canonical workspace.store.settings := by
  obtain ⟨settings, commands, rfl⟩ := reachable
  have every : Every settings (Context.Canonical settings)
      (afterAll engine (start settings initial) commands) :=
    every_afterAll (keptBy_canonical engine settings) commands
  rw [every.settings]
  exact (every.contexts id context found).2

/-- The text of a type of a live context is that of its tree. -/
theorem Reachable.typeText (reachable : Reachable engine initial workspace) {id : ContextId}
    {context : Context} (found : workspace.store.context? id = some context) {type : TypeId}
    (issued : context.Issued (.type type)) :
    ∃ tree, context.tree? type.index = some tree ∧
      (Query.typeText type).answer workspace.store = .ok (.text tree.text) := by
  obtain ⟨sameId, coherent⟩ := reachable.coherent found
  obtain ⟨tree, expanded, formatted⟩ :=
    (reachable.canonical found).formatType_ok coherent.grounded issued
  have home : workspace.store.context? type.context = some context := by
    rw [issued.1, sameId]
    exact found
  refine ⟨tree, expanded, bind_eq_ok.mpr ⟨context, Store.resolve_eq_ok.mpr home, ?_⟩⟩
  exact bind_eq_ok.mpr ⟨tree.text, formatted, rfl⟩

/-! ### Instructions -/

/-- A function calls another one and adds one of that one's parameters, which is then deleted. -/
def calleeDeletedRun : List Command :=
  let context : ContextId := ⟨0, 0⟩
  [.createContext "outlived",
    .edit (.integerType context 32),
    .edit (.signatureType ⟨context, 0⟩ [⟨context, 0⟩] false),
    .edit (.declare context "callee" ⟨context, 1⟩),
    .edit (.declare context "caller" ⟨context, 1⟩),
    .edit (.appendBlock ⟨context, 2⟩ "entry"),
    .edit (.call ⟨context, 0⟩ ⟨context, 0⟩ [⟨context, 3⟩] "called"),
    .edit (.binary ⟨context, 0⟩ .add ⟨context, 1⟩ ⟨context, 4⟩ "sum"),
    .edit (.ret ⟨context, 0⟩ (some ⟨context, 5⟩)),
    .edit (.deleteFunction ⟨context, 0⟩)]

/-- Each instruction in a block of a live function obeys its typing rule for those of its operands
and callees that are live, and none of these operands is of a type that is not sized. -/
theorem instructions_typed (reachable : Reachable engine initial workspace) {id : ContextId}
    {context : Context} (found : workspace.store.context? id = some context)
    {entry : FunctionEntry} (member : entry ∈ context.functions) {block : BlockRef} {home : Block}
    (listed : block ∈ entry.blocks) (live : context.block? block = some home) {value : ValueRef}
    (appended : value ∈ home.instructions) :
    ∃ type code, context.Holds value type (.instruction block code) ∧
      context.TypedLive entry.self type code := by
  obtain ⟨_, coherent⟩ := reachable.coherent found
  have named := ((coherent.owned.blocks.lists entry member).2 block).mp listed
  obtain ⟨type, code, held⟩ :=
    ((coherent.owned.instructions.lists block home live).2 value).mp appended
  exact ⟨type, code, held,
    coherent.wellTyped.typedLive coherent.owned (reachable.canonical found) held named⟩

/-- The sum is still typed, though its left operand is gone and its right one comes from a callee
that is gone. -/
theorem calleeDeletedRun_typed :
    ∃ context, (afterAll Engine.reference (start .standard .start) calleeDeletedRun).store.context?
        ⟨0, 0⟩ = some context ∧ context.function? 0 = none ∧ context.value? 1 = none ∧
      (context.value? 4).isSome ∧ context.TypedLive 2 0 (.binary .add 1 4) := by
  have kept : (((afterAll Engine.reference (start .standard .start) calleeDeletedRun).store.context?
      ⟨0, 0⟩).bind fun context => (context.function? 2).bind fun entry =>
        (context.block? 0).map fun home => (entry.self, entry.blocks, home.instructions)) =
      some (2, [0], [4, 5, 6]) := by decide +kernel
  have values :
      ((afterAll Engine.reference (start .standard .start) calleeDeletedRun).store.context?
        ⟨0, 0⟩).map (fun context => ((context.function? 0).isNone, context.value? 1,
          (context.value? 4).isSome, context.value? 5)) =
      some (true, none, true, some ⟨0, .instruction 0 (.binary .add 1 4), "sum"⟩) := by
    decide +kernel
  obtain ⟨context, found, rest⟩ := Option.bind_eq_some_iff.mp kept
  obtain ⟨entry, lookup, rest⟩ := Option.bind_eq_some_iff.mp rest
  obtain ⟨home, live, parts⟩ := Option.map_eq_some_iff.mp rest
  rw [found, Option.map_some] at values
  simp only [Option.some.injEq, Prod.mk.injEq] at parts values
  obtain ⟨self, blocks, instructions⟩ := parts
  obtain ⟨noCallee, noOperand, called, sum⟩ := values
  have member := (Context.mem_of_function? lookup).1
  have listed : 0 ∈ entry.blocks := blocks ▸ List.mem_cons_self
  have appended : 5 ∈ home.instructions := by rw [instructions]; decide
  obtain ⟨type, code, held, typed⟩ :=
    instructions_typed ⟨.standard, calleeDeletedRun, rfl⟩ found member listed live appended
  have same := held.unique (.of_value? sum)
  rw [self, same.1, (ValueKind.instruction.inj same.2).2] at typed
  exact ⟨context, found, Option.isNone_iff_eq_none.mp noCallee, noOperand, called, typed⟩

end TypedIR.Workspace
