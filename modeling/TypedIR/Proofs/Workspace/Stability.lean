import TypedIR.Engine.Reference
import TypedIR.Proofs.Check.Order
import TypedIR.Proofs.Ownership.Stability
import TypedIR.Proofs.Print.Total
import TypedIR.Proofs.Types.Tree
import TypedIR.Proofs.Workspace.Histories
import TypedIR.Proofs.Workspace.Queries
import TypedIR.Proofs.Workspace.Tasks

/-!
Contract: what a handle denotes and what it refers to, in the course of a run.

Owns:
- the questions about the parts that an entry keeps from its first moment to its last, and
  the questions for lists;
- the answers to both in a context and a later one;
- the same for any two moments of a run, as long as the handle is live at both;
- references point backwards at all times, for every engine, with what that means for the printer
  and for the check of uses.

Does not own: names of values, attachments and records, which may change.
-/

/-! ## Lasting answers -/

namespace TypedIR

variable {σ : Type} {settings : Settings} {before after : Context}

/-- The position in its table that the handle refers to. -/
def Handle.index : Handle → Nat
  | .context id => id.index
  | .type id => id.index
  | .value id => id.index
  | .function id => id.index
  | .block id => id.index

namespace Query

/-- The question is about the structure of a type, about the type or the kind of a value, about the
parent or the name of a block, or about the signature or the parameters of a function. -/
def asksFixed : Query → Bool
  | .owner _ | .typeShape _ | .elementType _ | .arrayLength _ | .structFields _
  | .signatureParts _ | .typeText _ | .typeOf _ | .valueKind _ | .signature _ | .parameterAt _ _
  | .parameterCount _ | .parameters _ | .blockName _ | .blockParent _ => true
  | _ => false

/-- The question is for the instructions of a block, or for the blocks or the parameters of a
function. -/
def asksList : Query → Bool
  | .blocks _ | .parameters _ | .instructions _ => true
  | _ => false

end Query

/-! ### Resolution later on -/

namespace Context.Grows

variable (grows : before.Grows after)

include grows

theorem typeId (type : TypeRef) : after.typeId type = before.typeId type := by
  rw [Context.typeId, grows.id, Context.typeId]

theorem valueId (value : ValueRef) : after.valueId value = before.valueId value := by
  rw [Context.valueId, grows.id, Context.valueId]

theorem functionId (function : ValueRef) :
    after.functionId function = before.functionId function := by
  rw [Context.functionId, grows.id, Context.functionId]

theorem blockId (block : BlockRef) : after.blockId block = before.blockId block := by
  rw [Context.blockId, grows.id, Context.blockId]

theorem resolveType {type : TypeId} (live : before.Live (.type type)) :
    after.resolveType type = before.resolveType type := by
  obtain ⟨home, shape, known⟩ := live
  rw [resolveType_eq_ok.mpr ⟨home, known⟩]
  exact resolveType_eq_ok.mpr ⟨home.trans grows.id.symm, grows.shapes _ _ known⟩

theorem resolveValue {value : ValueId} (live : before.Live (.value value))
    (still : after.Live (.value value)) :
    ∃ old new, before.resolveValue value = .ok old ∧ after.resolveValue value = .ok new ∧
      new.type = old.type ∧ new.kind = old.kind := by
  obtain ⟨home, old, found⟩ := live
  obtain ⟨laterHome, new, lookup⟩ := still
  have held := grows.values _ _ _ (Table.lt_size_of_get? found) (.of_value? lookup)
  exact ⟨old, new, resolveValue_eq_ok.mpr ⟨home, found⟩, resolveValue_eq_ok.mpr ⟨laterHome, lookup⟩,
    held.unique (.of_value? found)⟩

theorem resolveFunction (owned : before.Owned) {function : FunctionId}
    (live : before.Live (.function function)) (still : after.Live (.function function)) :
    ∃ old new, before.resolveFunction function = .ok old ∧
      after.resolveFunction function = .ok new ∧ old ∈ before.functions ∧
      new ∈ after.functions ∧ old.Grows new := by
  obtain ⟨home, old, found⟩ := live
  obtain ⟨laterHome, new, lookup⟩ := still
  obtain ⟨oldMember, oldSelf⟩ := mem_of_function? found
  obtain ⟨newMember, newSelf⟩ := mem_of_function? lookup
  have issued : new.self < before.values.size := by
    rw [newSelf, ← oldSelf]
    exact owned.functions.lt_size ⟨old, oldMember, rfl⟩
  obtain ⟨earlier, member, grew⟩ := grows.functions new newMember issued
  obtain rfl : earlier = old := owned.functions.entry_unique member oldMember
    (grew.self.symm.trans (newSelf.trans oldSelf.symm))
  exact ⟨earlier, new, resolveFunction_eq_ok.mpr ⟨home, found⟩,
    resolveFunction_eq_ok.mpr ⟨laterHome, lookup⟩, member, newMember, grew⟩

theorem resolveBlock {block : BlockId} (live : before.Live (.block block))
    (still : after.Live (.block block)) :
    ∃ old new, before.resolveBlock block = .ok old ∧ after.resolveBlock block = .ok new ∧
      after.block? block.index = some new ∧ old.Grows new := by
  obtain ⟨home, old, found⟩ := live
  obtain ⟨laterHome, new, lookup⟩ := still
  obtain ⟨earlier, known, grew⟩ := grows.blocks _ _ (lt_size_of_block? found) lookup
  obtain rfl := Option.some.inj (found.symm.trans known)
  exact ⟨old, new, resolveBlock_eq_ok.mpr ⟨home, found⟩,
    resolveBlock_eq_ok.mpr ⟨laterHome, lookup⟩, lookup, grew⟩

/-- A type has the same text later on. -/
theorem typeText? (regular : before.Regular settings) (coherent : after.Coherent) {type : TypeId}
    (live : before.Live (.type type)) :
    after.typeText? type.index = before.typeText? type.index := by
  obtain ⟨_, shape, known⟩ := live
  obtain ⟨tree, expanded, _⟩ := regular.canonical.proper_tree regular.coherent.grounded known
  rw [Context.typeText?, Context.typeText?, expanded,
    regular.tree?_of_shapes coherent.grounded grows.shapes expanded]

theorem typeExpectation (regular : before.Regular settings) (coherent : after.Coherent)
    {type : TypeId} (live : before.Live (.type type)) :
    after.typeExpectation type.index = before.typeExpectation type.index := by
  rw [Context.typeExpectation, describeType, grows.typeText? regular coherent live, grows.typeId]
  rfl

end Context.Grows

/-! ### Answers later on -/

namespace Query

/-- A question about what is fixed has the same answer later on. -/
theorem answerIn_of_grows (grows : before.Grows after) (regular : before.Regular settings)
    (coherent : after.Coherent) {query : Query} (fixed : query.asksFixed = true)
    (live : before.Live query.handle) (still : after.Live query.handle) :
    query.answerIn after = query.answerIn before := by
  have owned := regular.coherent.owned
  cases query with
  | owner handle =>
      cases handle with
      | context id => simp only [answerIn, ownerIn, grows.id]
      | type type => simp only [answerIn, ownerIn, grows.resolveType live]
      | value value =>
          obtain ⟨old, new, one, two, _⟩ := grows.resolveValue live still
          simp only [answerIn, ownerIn, one, two, ok_bind]
      | function function =>
          obtain ⟨old, new, one, two, _⟩ := grows.resolveFunction owned live still
          simp only [answerIn, ownerIn, one, two, ok_bind]
      | block block =>
          obtain ⟨old, new, one, two, _⟩ := grows.resolveBlock live still
          simp only [answerIn, ownerIn, one, two, ok_bind]
  | typeShape type => simp only [answerIn, grows.resolveType live, grows.id]
  | elementType type =>
      simp only [answerIn, Context.elementType, grows.resolveType live, grows.typeId,
        grows.typeExpectation regular coherent live]
  | arrayLength type =>
      simp only [answerIn, Context.arrayLength, grows.resolveType live,
        grows.typeExpectation regular coherent live]
  | structFields type =>
      simp only [answerIn, Context.structFields, grows.resolveType live, funext grows.typeId,
        grows.typeExpectation regular coherent live]
  | signatureParts type =>
      simp only [answerIn, Context.signatureParts, grows.resolveType live, funext grows.typeId,
        grows.typeExpectation regular coherent live]
  | typeText type =>
      simp only [answerIn, Context.formatType, grows.resolveType live,
        grows.typeText? regular coherent live]
  | typeOf value =>
      obtain ⟨old, new, one, two, sameType, _⟩ := grows.resolveValue live still
      simp only [answerIn, one, two, ok_bind, sameType, grows.typeId]
  | valueKind value =>
      obtain ⟨old, new, one, two, _, sameKind⟩ := grows.resolveValue live still
      simp only [answerIn, one, two, ok_bind, sameKind, grows.id]
  | signature function =>
      obtain ⟨old, new, one, two, _, _, grew⟩ := grows.resolveFunction owned live still
      simp only [answerIn, one, two, ok_bind, grew.signature, grows.typeId]
  | parameterAt function position =>
      obtain ⟨old, new, one, two, _, _, grew⟩ := grows.resolveFunction owned live still
      simp only [answerIn, Context.parameterAt, one, two, ok_bind, grew.parameters, grows.valueId]
  | parameterCount function =>
      obtain ⟨old, new, one, two, _, _, grew⟩ := grows.resolveFunction owned live still
      simp only [answerIn, one, two, ok_bind, grew.parameters]
  | parameters function =>
      obtain ⟨old, new, one, two, _, _, grew⟩ := grows.resolveFunction owned live still
      simp only [answerIn, one, two, ok_bind, grew.parameters, grows.valueId]
  | blockName block =>
      obtain ⟨old, new, one, two, _, grew⟩ := grows.resolveBlock live still
      simp only [answerIn, one, two, ok_bind, grew.name]
  | blockParent block =>
      obtain ⟨old, new, one, two, _, grew⟩ := grows.resolveBlock live still
      simp only [answerIn, one, two, ok_bind, grew.function, grows.functionId]
  | _ => cases fixed

/-- The list in an answer starts with the list in the answer before, and is in the order of the
table. -/
def Extends (query : Query) (before after : Context) : Prop :=
  ∃ old new : List Handle, query.answerIn before = .ok (.handles old) ∧
    query.answerIn after = .ok (.handles new) ∧ old <+: new ∧
    new.Pairwise fun one other => one.index < other.index

theorem extends_of_grows (grows : before.Grows after) (owned : before.Owned)
    (ascending : after.Ascending) {query : Query} (lists : query.asksList = true)
    (live : before.Live query.handle) (still : after.Live query.handle) :
    query.Extends before after := by
  cases query with
  | blocks function =>
      obtain ⟨old, new, one, two, _, member, grew⟩ := grows.resolveFunction owned live still
      refine ⟨_, new.blocks.map fun block => .block (after.blockId block),
        bind_eq_ok.mpr ⟨old, one, rfl⟩, bind_eq_ok.mpr ⟨new, two, rfl⟩, ?_, ?_⟩
      · simp only [grows.blockId]
        exact grew.blocks.map _
      · exact List.pairwise_map.mpr (ascending.blocks new member)
  | parameters function =>
      obtain ⟨old, new, one, two, _, member, grew⟩ := grows.resolveFunction owned live still
      refine ⟨_, new.parameters.map fun value => .value (after.valueId value),
        bind_eq_ok.mpr ⟨old, one, rfl⟩, bind_eq_ok.mpr ⟨new, two, rfl⟩, ?_, ?_⟩
      · simp only [grows.valueId, grew.parameters]
        exact List.prefix_rfl
      · exact List.pairwise_map.mpr (ascending.parameters new member)
  | instructions block =>
      obtain ⟨old, new, one, two, lookup, grew⟩ := grows.resolveBlock live still
      refine ⟨_, new.instructions.map fun value => .value (after.valueId value),
        bind_eq_ok.mpr ⟨old, one, rfl⟩, bind_eq_ok.mpr ⟨new, two, rfl⟩, ?_, ?_⟩
      · simp only [grows.valueId]
        exact grew.instructions.map _
      · exact List.pairwise_map.mpr (ascending.instructions _ new lookup)
  | _ => cases lists

end Query

/-! ### In the course of a run -/

namespace Workspace

variable {workspace : Workspace σ}

theorem Proper.pursue (proper : workspace.Proper settings) (run : List (Engine σ × Task)) :
    (workspace.pursue run).1.Proper settings :=
  Store.lasting_sound.pursue proper run

theorem Proper.grows (proper : workspace.Proper settings) {id : ContextId}
    (found : workspace.store.context? id = some before) (run : List (Engine σ × Task))
    (lives : (workspace.pursue run).1.store.context? id = some after) : before.Grows after := by
  have kept : Context.Invariant settings fun context => before.Grows context :=
    fun _ _ _ _ grows change => grows.trans change.grows
  exact holds_pursue proper kept found (.refl before) run lives

/-- At all times types are canonical, and lists in the order of the tables. -/
theorem ordered_pursue (settings : Settings) (native : σ) (run : List (Engine σ × Task)) :
    ((start settings native).pursue run).1.Every settings fun context =>
      context.Coherent ∧ context.Canonical settings ∧ context.Ascending := by
  have kept : Context.Invariant settings fun context =>
      context.Canonical settings ∧ context.Ascending :=
    fun _ _ _ coherent ⟨canonical, ascending⟩ change =>
      ⟨canonical.step change, ascending.step coherent.owned change⟩
  exact every_pursue (fun id home name =>
    ⟨Context.canonical_empty settings id home name, Context.ascending_empty id home name⟩)
    kept native run

/-- A function that calls another one. -/
def callingRun : List (Engine ReferenceState × Task) :=
  let context : ContextId := ⟨0, 0⟩
  let commands : List Command :=
    [.createContext "calls",
      .edit (.integerType context 32),
      .edit (.signatureType ⟨context, 0⟩ [⟨context, 0⟩] false),
      .edit (.declare context "f" ⟨context, 1⟩),
      .edit (.declare context "g" ⟨context, 1⟩),
      .edit (.appendBlock ⟨context, 0⟩ "entry"),
      .edit (.appendBlock ⟨context, 2⟩ "entry"),
      .edit (.binary ⟨context, 0⟩ .add ⟨context, 1⟩ ⟨context, 1⟩ "sum"),
      .edit (.call ⟨context, 0⟩ ⟨context, 2⟩ [⟨context, 4⟩] "called")]
  commands.map fun command => (.reference, .request (.command command))

/-- The function that is called is deleted, the other one gets a block and an instruction, and what
it computes gets another name. -/
def growingRun : List (Engine ReferenceState × Task) :=
  let context : ContextId := ⟨0, 0⟩
  let commands : List Command :=
    [.edit (.deleteFunction ⟨context, 2⟩),
      .edit (.rename ⟨context, 5⟩ "result"),
      .edit (.appendBlock ⟨context, 0⟩ "entry"),
      .edit (.ret ⟨context, 0⟩ (some ⟨context, 5⟩))]
  commands.map fun command => (.reference, .request (.command command))

/-- At any two moments of a run at which the handle of a question is live, a question about what is
fixed has the same answer, and the earlier of two lists is the beginning of the later one, which is
strictly increasing. -/
theorem handles_stable (settings : Settings) (native : σ) (earlier later : List (Engine σ × Task))
    {query : Query}
    (live : ((start settings native).pursue earlier).1.store.Live query.handle)
    (still : ((start settings native).pursue (earlier ++ later)).1.store.Live query.handle) :
    (query.asksFixed = true →
      query.answer ((start settings native).pursue (earlier ++ later)).1.store =
        query.answer ((start settings native).pursue earlier).1.store) ∧
    (query.asksList = true →
      ∃ old new : List Handle,
        query.answer ((start settings native).pursue earlier).1.store = .ok (.handles old) ∧
        query.answer ((start settings native).pursue (earlier ++ later)).1.store =
          .ok (.handles new) ∧
        old <+: new ∧ new.Pairwise fun one other => one.index < other.index) := by
  have invariants := ordered_pursue settings native
  have appended : ((start settings native).pursue (earlier ++ later)).1 =
      (((start settings native).pursue earlier).1.pursue later).1 := by
    rw [pursue_append]
  obtain ⟨before, found, live⟩ := live
  obtain ⟨after, lookup, still⟩ := still
  rw [Query.handle_tag] at found lookup
  obtain ⟨_, coherent, canonical, _⟩ := (invariants earlier).contexts _ before found
  obtain ⟨_, laterCoherent, _, ascending⟩ := (invariants _).contexts _ after lookup
  have grows : before.Grows after :=
    ((proper_start settings native).pursue earlier).grows found _ (appended ▸ lookup)
  have first : query.answer ((start settings native).pursue earlier).1.store =
      query.answerIn before := by
    rw [Query.answer, Store.read, Store.resolve_eq_ok.mpr found]
    rfl
  have last : query.answer ((start settings native).pursue (earlier ++ later)).1.store =
      query.answerIn after := by
    rw [Query.answer, Store.read, Store.resolve_eq_ok.mpr lookup]
    rfl
  rw [first, last]
  have regular : before.Regular settings := ⟨canonical, coherent⟩
  exact ⟨fun fixed => Query.answerIn_of_grows grows regular laterCoherent fixed live still,
    fun lists => Query.extends_of_grows grows coherent.owned ascending lists live still⟩

/-- The call is what it was, though it has another name and its callee is gone. It stands where it
stood, with an instruction behind it. -/
theorem growingRun_stable :
    let first := ((start .standard .start).pursue callingRun).1.store
    let last := ((start .standard .start).pursue (callingRun ++ growingRun)).1.store
    let call : ValueId := ⟨⟨0, 0⟩, 5⟩
    ((Query.valueName call).answer first = .ok (.text "called") ∧
      (Query.valueName call).answer last = .ok (.text "result") ∧
      (Query.owner (.function ⟨⟨0, 0⟩, 2⟩)).answer last =
        .error (.released (.function ⟨⟨0, 0⟩, 2⟩))) ∧
      (Query.valueKind call).answer last = (Query.valueKind call).answer first ∧
      ∃ old new : List Handle,
        (Query.instructions ⟨⟨0, 0⟩, 0⟩).answer first = .ok (.handles old) ∧
        (Query.instructions ⟨⟨0, 0⟩, 0⟩).answer last = .ok (.handles new) ∧
        old <+: new ∧ old.length < new.length := by
  intro first last call
  have names : (Query.valueName call).answer first = .ok (.text "called") ∧
      (Query.valueName call).answer last = .ok (.text "result") ∧
      (Query.owner (.function ⟨⟨0, 0⟩, 2⟩)).answer last =
        .error (.released (.function ⟨⟨0, 0⟩, 2⟩)) := by decide +kernel
  have lists : (Query.instructions ⟨⟨0, 0⟩, 0⟩).answer first =
        .ok (.handles [.value ⟨⟨0, 0⟩, 4⟩, .value ⟨⟨0, 0⟩, 5⟩]) ∧
      (Query.instructions ⟨⟨0, 0⟩, 0⟩).answer last =
        .ok (.handles [.value ⟨⟨0, 0⟩, 4⟩, .value ⟨⟨0, 0⟩, 5⟩, .value ⟨⟨0, 0⟩, 6⟩]) := by
    decide +kernel
  have earlier := (proper_start .standard .start).pursue callingRun
  have later := (proper_start .standard .start).pursue (callingRun ++ growingRun)
  have live : first.Live (.value call) := earlier.1.live_of_answer names.1
  have still : last.Live (.value call) := later.1.live_of_answer names.2.1
  have kind := @handles_stable ReferenceState .standard .start callingRun growingRun
    (.valueKind call) live still
  have listed := handles_stable .standard ReferenceState.start callingRun growingRun
    (earlier.1.live_of_answer lists.1) (later.1.live_of_answer lists.2)
  obtain ⟨old, new, one, two, begins, _⟩ := listed.2 rfl
  obtain rfl := Fact.handles.inj (Except.ok.inj (lists.1.symm.trans one))
  obtain rfl := Fact.handles.inj (Except.ok.inj (lists.2.symm.trans two))
  exact ⟨names, kind.1 rfl, _, _, lists.1, lists.2, begins, by decide⟩

end Workspace

end TypedIR

/-! ## References -/

namespace TypedIR.Workspace

variable {σ : Type}

/-- An array inside a struct, and an instruction that uses another function's. That function is
deleted in the end. -/
def nestedRun : List (Engine ReferenceState × Task) :=
  let context : ContextId := ⟨0, 0⟩
  let commands : List Command :=
    [.createContext "nested",
      .edit (.integerType context 32),
      .edit (.signatureType ⟨context, 0⟩ [⟨context, 0⟩] false),
      .edit (.integerConstant ⟨context, 0⟩ 7),
      .edit (.arrayConstant ⟨context, 0⟩ [⟨context, 0⟩, ⟨context, 0⟩]),
      .edit (.structConstant context [⟨context, 1⟩, ⟨context, 0⟩] false),
      .edit (.declare context "f" ⟨context, 1⟩),
      .edit (.declare context "g" ⟨context, 1⟩),
      .edit (.appendBlock ⟨context, 3⟩ "entry"),
      .edit (.appendBlock ⟨context, 5⟩ "entry"),
      .edit (.binary ⟨context, 1⟩ .add ⟨context, 6⟩ ⟨context, 0⟩ "theirs"),
      .edit (.binary ⟨context, 0⟩ .mul ⟨context, 7⟩ ⟨context, 4⟩ "ours"),
      .edit (.ret ⟨context, 0⟩ (some ⟨context, 8⟩)),
      .edit (.deleteFunction ⟨context, 5⟩)]
  commands.map fun command => (.reference, .request (.command command))

/-- What a live instruction or constant refers to stands before it, released or not, so references
form no cycle. The printer ends with the text that its recursion without a budget asks for. In a
block, instructions stand behind those of their operands that the block defines, and the check of
uses finds nothing to say about these. -/
theorem references_backward (settings : Settings) (native : σ) (run : List (Engine σ × Task))
    {id : ContextId} {context : Context}
    (found : ((start settings native).pursue run).1.store.context? id = some context) :
    (∀ value part, context.RefersTo value part → part < value) ∧
      (∀ value, ¬ Relation.TransGen context.RefersTo value value) ∧
      (∀ names value, Succeeds (context.operandText names value) ∧
        context.operandText names value =
          context.operandFrom names (context.operandText names) value ∧
        ∀ budget, value < budget →
          context.operandWithin names budget value = context.operandText names value) ∧
      (∀ block value code operand, context.definingBlock? value = some block →
        context.instruction? value = some code → operand ∈ code.operands →
        context.definingBlock? operand = some block →
        ∃ home front back, context.block? block = some home ∧
          home.instructions = front ++ value :: back ∧ operand ∈ front) ∧
      ∀ entry ∈ context.functions, ∀ parents position,
        ∀ finding ∈ context.dominanceFindings entry parents position,
        ∀ value opcode block,
          finding ≠ ⟨.undominatedUse value opcode (.block block), .block block⟩ := by
  obtain ⟨_, coherent, canonical, ascending⟩ :=
    (ordered_pursue settings native run).contexts id context found
  have grounded := coherent.grounded
  refine ⟨fun _ _ refers => grounded.refersTo_lt refers, ?_, ?_, ?_, ?_⟩
  · exact fun value cycle => Nat.lt_irrefl value (grounded.transGen_lt cycle)
  · exact fun names value => ⟨Context.operandText_succeeds canonical grounded names value,
      grounded.operandText_eq value, fun _ enough => grounded.operandWithin_eq enough⟩
  · intro block value code operand defined isCode used sameBlock
    obtain ⟨type, other, held⟩ := Context.definingBlock?_eq_some.mp defined
    obtain ⟨home, live⟩ := coherent.owned.instructions.owners value type block other held
    have inBlock := ((coherent.owned.instructions.lists block home live).2 value).mpr
      ⟨type, other, held⟩
    obtain ⟨front, back, place⟩ := List.append_of_mem inBlock
    exact ⟨home, front, back, live, place,
      coherent.operand_earlier ascending live place isCode used sameBlock⟩
  · rintro entry member parents position finding listed value opcode block rfl
    obtain ⟨_, _, home, other, same, apart⟩ :=
      coherent.dominanceFindings_elsewhere ascending member listed
    simp only [Finding.mk.injEq, Violation.undominatedUse.injEq, Place.block.injEq] at same
    exact apart (same.1.2.2.symm.trans same.2)

/-- The instruction keeps its reference to the released one before it, the return stands behind
what it returns, and any budget from three on gives the text of the nested constant. -/
theorem nestedRun_backward :
    ∃ context, ((start .standard .start).pursue nestedRun).1.store.context? ⟨0, 0⟩ = some context ∧
      context.value? 7 = none ∧ context.RefersTo 8 7 ∧
      ¬ Relation.TransGen context.RefersTo 8 8 ∧
      (∀ budget, 2 < budget → context.operandWithin [] budget 2 =
        .ok "\x7b [2 x i32] [i32 7, i32 7], i32 7 \x7d") ∧
      ∃ home front back, context.block? 0 = some home ∧
        home.instructions = front ++ 9 :: back ∧ 8 ∈ front := by
  have facts : (((start .standard .start).pursue nestedRun).1.store.context? ⟨0, 0⟩).map
      (fun context => (context.value? 7, context.operandText [] 2,
        (context.value? 8).map (·.kind), (context.value? 9).map (·.kind))) =
      some (none, .ok "\x7b [2 x i32] [i32 7, i32 7], i32 7 \x7d",
        some (.instruction 0 (.binary .mul 7 4)), some (.instruction 0 (.ret (some 8)))) := by
    decide +kernel
  obtain ⟨context, found, equal⟩ := Option.map_eq_some_iff.mp facts
  simp only [Prod.mk.injEq, Option.map_eq_some_iff] at equal
  obtain ⟨gone, text, ⟨ours, oursFound, oursKind⟩, ⟨last, lastFound, lastKind⟩⟩ := equal
  have oursHeld : context.Holds 8 ours.type (.instruction 0 (.binary .mul 7 4)) :=
    oursKind ▸ .of_value? oursFound
  have lastHeld : context.Holds 9 last.type (.instruction 0 (.ret (some 8))) :=
    lastKind ▸ .of_value? lastFound
  obtain ⟨_, acyclic, printed, ordered, _⟩ :=
    references_backward .standard ReferenceState.start nestedRun found
  refine ⟨context, found, gone, ⟨_, _, oursHeld, by decide⟩, acyclic 8, ?_, ?_⟩
  · intro budget enough
    rw [(printed [] 2).2.2 budget enough, text]
  · exact ordered 0 9 _ 8 (Context.definingBlock?_eq_some.mpr ⟨_, _, lastHeld⟩)
      (Context.instruction?_eq_some.mpr ⟨_, _, lastHeld⟩) (by decide)
      (Context.definingBlock?_eq_some.mpr ⟨_, _, oursHeld⟩)

end TypedIR.Workspace
