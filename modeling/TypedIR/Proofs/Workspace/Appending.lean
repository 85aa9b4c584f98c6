import TypedIR.Proofs.Context.Appending
import TypedIR.Proofs.Workspace.Stability
import TypedIR.Proofs.Workspace.Tasks

/-!
Contract: building an instruction, at any time.

Owns:
- the edits that append an instruction, each with the block, the code and the name;
- that such an edit succeeds exactly if its handles are live in one context and the rule of the
  instruction holds, and that it then appends the instruction and changes nothing else.

Does not own: the rules themselves.
-/

namespace TypedIR

/-- The block at whose end the edit appends an instruction, the instruction, and its name. -/
def Edit.appends? : Edit → Option (BlockId × Instruction × String)
  | .binary block operator left right name =>
      some (block, .binary operator left.index right.index, name)
  | .compare block predicate left right name =>
      some (block, .compare predicate left.index right.index, name)
  | .select block condition thenValue elseValue name =>
      some (block, .select condition.index thenValue.index elseValue.index, name)
  | .call block callee arguments name =>
      some (block, .call callee.index (arguments.map (·.index)), name)
  | .ret block value => some (block, .ret (value.map (·.index)), "")
  | .branch block target => some (block, .branch target.index, "")
  | .condBranch block condition thenBlock elseBlock =>
      some (block, .condBranch condition.index thenBlock.index elseBlock.index, "")
  | .unreachable block => some (block, .unreachable, "")
  | _ => none

variable {σ : Type} {settings : Settings} {context after : Context} {edit : Edit} {block : BlockId}
  {code : Instruction} {name : String} {answer : Answer}

/-- An operation that appends an instruction succeeds with its value. -/
theorem Operation.appending_eq_ok {opcode : String} {handles : List Handle}
    {apply : Context → Except Fault (ValueId × Context)}
    (each : ∀ result, apply context = .ok result ↔ context.Builds handles block code name result) :
    (((Operation.appending block opcode apply).map Edit.valueAnswer).effect context).1 =
        .ok (answer, after) ↔
      ∃ value, context.Builds handles block code name (value, after) ∧
        Edit.valueAnswer value = answer := by
  rw [Operation.map_eq_ok, Operation.appending, Operation.noted, Operation.reported_effect]
  exact exists_congr fun value => and_congr_left fun _ => each _

theorem Edit.home_of_appends (settings : Settings)
    (appends : edit.appends? = some (block, code, name)) :
    (edit.operation settings).home = block.context ∧ (edit.operation settings).screen = .ok () := by
  cases edit with
  | binary | compare | select | call | ret | branch | condBranch | unreachable =>
      obtain ⟨rfl, _⟩ := Prod.mk.inj (Option.some.inj appends)
      exact ⟨rfl, rfl⟩
  | _ => cases appends

theorem Edit.appends_iff (appends : edit.appends? = some (block, code, name))
    (owned : context.Owned) (canonical : context.Canonical settings) :
    ((edit.operation settings).effect context).1 = .ok (answer, after) ↔
      ∃ value, context.Builds edit.handles block code name (value, after) ∧
        Edit.valueAnswer value = answer := by
  cases edit with
  | binary =>
      cases appends
      exact Operation.appending_eq_ok fun _ => Context.binary_iff
  | compare =>
      cases appends
      exact Operation.appending_eq_ok fun _ => Context.compare_iff canonical
  | select =>
      cases appends
      exact Operation.appending_eq_ok fun _ => Context.select_iff
  | call =>
      cases appends
      exact Operation.appending_eq_ok fun _ => Context.call_iff owned
  | ret =>
      cases appends
      exact Operation.appending_eq_ok fun _ => Context.ret_iff canonical
  | branch =>
      cases appends
      exact Operation.appending_eq_ok fun _ => Context.branch_iff canonical
  | condBranch =>
      cases appends
      exact Operation.appending_eq_ok fun _ => Context.condBranch_iff canonical
  | unreachable =>
      cases appends
      exact Operation.appending_eq_ok fun _ => Context.unreachable_iff canonical
  | _ => cases appends

namespace Workspace

/-- The edit appends the instruction if its handles are live in the context of the block and the
rule of the instruction holds there, and is refused otherwise. -/
structure AppendsExactly (engine : Engine σ) (workspace : Workspace σ) (edit : Edit)
    (block : BlockId) (code : Instruction) (name : String) : Prop where
  accepted : (∃ answer, ((Command.edit edit).run engine workspace).result = .ok answer) ↔
    ∃ context function, workspace.store.context? block.context = some context ∧
      (∀ handle ∈ edit.handles, context.Live handle) ∧
      context.parent? block.index = some function ∧ context.Admits function code
  /-- The answer is the one value that is new. -/
  appended : ∀ answer, ((Command.edit edit).run engine workspace).result = .ok answer →
    ∃ context function type changed, workspace.store.context? block.context = some context ∧
      context.parent? block.index = some function ∧
      answer = .handle (.value (context.valueId context.values.size)) ∧
      Alters block.context changed workspace ((Command.edit edit).run engine workspace).workspace ∧
      context.Appends function block.index type code name changed

theorem appending_exact (settings : Settings) (native : σ) (run : List (Engine σ × Task))
    (engine : Engine σ) (appends : edit.appends? = some (block, code, name)) :
    AppendsExactly engine ((start settings native).pursue run).1 edit block code name := by
  have every := ordered_pursue settings native run
  generalize ((start settings native).pursue run).1 = workspace at every ⊢
  have home := edit.home_of_appends workspace.store.settings appends
  -- In a live context, the edit has its effect if and only if it builds the instruction.
  have effect : ∀ context answer changed, workspace.store.context? block.context = some context →
      (((edit.operation workspace.store.settings).effect context).1 = .ok (answer, changed) ↔
        ∃ value, context.Builds edit.handles block code name (value, changed) ∧
          Edit.valueAnswer value = answer) := by
    intro context answer changed found
    obtain ⟨_, coherent, canonical, _⟩ := every.contexts _ _ found
    rw [every.settings]
    exact edit.appends_iff appends coherent.owned canonical
  have built : ∀ answer, ((Command.edit edit).run engine workspace).result = .ok answer →
      ∃ context changed value, workspace.store.context? block.context = some context ∧
        ((edit.operation workspace.store.settings).effect context).1 = .ok (answer, changed) ∧
        context.Builds edit.handles block code name (value, changed) ∧
        Edit.valueAnswer value = answer := by
    intro answer done
    obtain ⟨_, context, changed, found, applied⟩ := edit_eq_ok.mp done
    rw [home.1] at found
    obtain ⟨value, builds, same⟩ := (effect context answer changed found).mp applied
    exact ⟨context, changed, value, found, applied, builds, same⟩
  constructor
  · constructor
    · rintro ⟨answer, done⟩
      obtain ⟨context, changed, value, found, _, ⟨live, function, type, parent, admits, _⟩, _⟩ :=
        built answer done
      exact ⟨context, function, found, live, parent, admits⟩
    · rintro ⟨context, function, found, live, parent, admits⟩
      obtain ⟨_, _, canonical, _⟩ := every.contexts _ _ found
      obtain ⟨type, result⟩ := canonical.exists_result admits
      have applied := (effect context _ _ found).mpr
        ⟨_, ⟨live, function, type, parent, admits, result, rfl⟩, rfl⟩
      exact ⟨_, (edit_alters engine home.2 home.1 found applied).1⟩
  · intro answer done
    obtain ⟨context, changed, value, found, applied, builds, rfl⟩ := built answer done
    obtain ⟨function, type, parent, rfl, appended⟩ := builds.appends
    exact ⟨context, function, type, changed, found, parent, rfl,
      (edit_alters engine home.2 home.1 found applied).2, appended⟩

/-- A function of two integers with an empty block. -/
def comparingRun : List (Engine ReferenceState × Task) :=
  let context : ContextId := ⟨0, 0⟩
  let commands : List Command :=
    [.createContext "comparing",
      .edit (.integerType context 32),
      .edit (.signatureType ⟨context, 0⟩ [⟨context, 0⟩, ⟨context, 0⟩] false),
      .edit (.declare context "f" ⟨context, 1⟩),
      .edit (.appendBlock ⟨context, 0⟩ "entry")]
  commands.map fun command => (.reference, .request (.command command))

/-- A comparison is appended, and the type of conditions is added for it. -/
theorem comparingRun_appended :
    let edit : Edit := .compare ⟨⟨0, 0⟩, 0⟩ .slt ⟨⟨0, 0⟩, 1⟩ ⟨⟨0, 0⟩, 2⟩ "less"
    let workspace := ((start .standard ReferenceState.start).pursue comparingRun).1
    edit.appends? = some (⟨⟨0, 0⟩, 0⟩, .compare .slt 1 2, "less") ∧
      AppendsExactly Engine.reference workspace edit ⟨⟨0, 0⟩, 0⟩ (.compare .slt 1 2) "less" ∧
      ∃ context type changed, workspace.store.context? ⟨0, 0⟩ = some context ∧
        Alters ⟨0, 0⟩ changed workspace
          ((Command.edit edit).run Engine.reference workspace).workspace ∧
        context.Appends 0 0 type (.compare .slt 1 2) "less" changed ∧
        (∀ known, context.shape? known ≠ some (.integer 1)) ∧
        changed.shape? type = some (.integer 1) := by
  intro edit workspace
  have appends : edit.appends? = some (⟨⟨0, 0⟩, 0⟩, .compare .slt 1 2, "less") := rfl
  have exactly : AppendsExactly Engine.reference workspace edit ⟨⟨0, 0⟩, 0⟩ (.compare .slt 1 2)
      "less" := appending_exact .standard ReferenceState.start comparingRun .reference appends
  have done : ((Command.edit edit).run Engine.reference workspace).result =
      .ok (.handle (.value ⟨⟨0, 0⟩, 3⟩)) := by decide +kernel
  have facts : (workspace.store.context? ⟨0, 0⟩).map
      (fun context => (context.parent? 0, context.findType? (.integer 1))) =
        some (some 0, none) := by decide +kernel
  obtain ⟨context, function, type, changed, found, parent, _, alters, appended⟩ :=
    exactly.appended _ done
  rw [found] at facts
  obtain ⟨owner, missing⟩ := Prod.mk.inj (Option.some.inj facts)
  obtain rfl : function = 0 := Option.some.inj (parent.symm.trans owner)
  exact ⟨appends, exactly, context, type, changed, found, alters, appended,
    Context.findType?_eq_none missing, appended.result⟩

end Workspace

end TypedIR
