import TypedIR.Engine.Scripted
import TypedIR.Proofs.Workspace.Atomicity
import TypedIR.Workspace.Query

/-!
Contract: what recorded verdicts have no influence on.

Owns:
- stores without their recorded verdicts, and the changes of a store that only touch those;
- printed code, and every query but the two that ask for verdicts;
- engines whose judgements do not depend on recorded verdicts, the reference engine and the
  scripted ones among them.

Does not own: what is recorded when.

All of a context but the list of its functions is the same without the verdicts by
definition, so only what looks functions up needs a proof.
-/

namespace TypedIR

variable {σ : Type}

namespace Context

variable {context : Context}

/-! ### Look-up -/

@[simp] theorem id_unrecorded : context.unrecorded.id = context.id := rfl

@[simp] theorem function?_unrecorded (function : ValueRef) :
    context.unrecorded.function? function =
      (context.function? function).map FunctionEntry.edited := by
  unfold function? unrecorded
  rw [List.find?_map]
  rfl

@[simp] theorem functionName?_unrecorded (function : ValueRef) :
    context.unrecorded.functionName? function = context.functionName? function := by
  unfold functionName?
  rw [function?_unrecorded]
  cases context.function? function <;> rfl

@[simp] theorem functionNamed?_unrecorded (name : String) :
    context.unrecorded.functionNamed? name = context.functionNamed? name := by
  unfold functionNamed?
  by_cases anonymous : name = ""
  · rw [if_pos anonymous, if_pos anonymous]
  · rw [if_neg anonymous, if_neg anonymous]
    show ((context.functions.map FunctionEntry.edited).find? _).map _ = _
    rw [List.find?_map, Option.map_map]
    rfl

theorem resolveFunction_unrecorded (function : FunctionId) :
    context.unrecorded.resolveFunction function =
      (context.resolveFunction function).map FunctionEntry.edited := by
  unfold resolveFunction
  rw [id_unrecorded]
  by_cases home : function.context = context.id
  · rw [if_neg (not_not_intro home), if_neg (not_not_intro home), function?_unrecorded]
    cases context.function? function.index <;> rfl
  · rw [if_pos home, if_pos home]
    rfl

/-- What is read off a live function is the same without the verdicts, unless it shows them. -/
theorem resolveFunction_unrecorded_bind {α : Type} {function : FunctionId}
    {shown plain : FunctionEntry → Except Fault α}
    (same : ∀ entry, plain entry.edited = shown entry) :
    (context.unrecorded.resolveFunction function >>= plain) =
      (context.resolveFunction function >>= shown) := by
  rw [resolveFunction_unrecorded]
  cases context.resolveFunction function with
  | error fault => rfl
  | ok entry => exact same entry

/-! ### Printed code -/

@[simp] theorem symbol_unrecorded (function : ValueRef) :
    context.unrecorded.symbol function = context.symbol function := by
  unfold symbol
  rw [functionName?_unrecorded]

theorem operandWithin_unrecorded (names : LocalNames) (budget : Nat) (value : ValueRef) :
    context.unrecorded.operandWithin names budget value =
      context.operandWithin names budget value := by
  induction budget generalizing value with
  | zero => rfl
  | succ budget inductionHypothesis =>
      simp only [operandWithin, inductionHypothesis, symbol_unrecorded]
      rfl

@[simp] theorem operandText_unrecorded (names : LocalNames) (value : ValueRef) :
    context.unrecorded.operandText names value = context.operandText names value :=
  operandWithin_unrecorded names (value + 1) value

@[simp] theorem typedOperand_unrecorded (names : LocalNames) (value : ValueRef) :
    context.unrecorded.typedOperand names value = context.typedOperand names value := by
  simp only [typedOperand, operandText_unrecorded]
  rfl

theorem callText_unrecorded (names : LocalNames) (type : TypeRef) (callee : ValueRef)
    (arguments : List ValueRef) :
    context.unrecorded.callText names type callee arguments =
      context.callText names type callee arguments := by
  have typed : context.unrecorded.typedOperand names = context.typedOperand names :=
    funext fun value => typedOperand_unrecorded names value
  have convention : (context.unrecorded.function? callee).map (·.convention) =
      (context.function? callee).map (·.convention) := by
    rw [function?_unrecorded, Option.map_map]
    rfl
  simp only [callText, typed, convention, symbol_unrecorded]
  rfl

theorem codeText_unrecorded (names : LocalNames) (type : TypeRef) (code : Instruction) :
    context.unrecorded.codeText names type code = context.codeText names type code := by
  cases code with
  | call callee arguments => exact callText_unrecorded names type callee arguments
  | ret value =>
      cases value with
      | none => rfl
      | some value => simp only [codeText, typedOperand_unrecorded]
  | branch target => rfl
  | unreachable => rfl
  | condBranch condition thenBlock elseBlock =>
      simp only [codeText, typedOperand_unrecorded]
      rfl
  | _ => simp only [codeText, typedOperand_unrecorded, operandText_unrecorded]

theorem instructionText_unrecorded (names : LocalNames) (value : ValueRef) :
    context.unrecorded.instructionText names value = context.instructionText names value := by
  simp only [instructionText, codeText_unrecorded, operandText_unrecorded]
  rfl

theorem parameterTexts_unrecorded (entry : FunctionEntry) (names : LocalNames) (position : Nat)
    (parameters : List ValueRef) :
    context.unrecorded.parameterTexts entry.edited names position parameters =
      context.parameterTexts entry names position parameters := by
  induction parameters generalizing position with
  | nil => rfl
  | cons parameter parameters inductionHypothesis =>
      rw [parameterTexts, parameterTexts, inductionHypothesis]
      rfl

theorem headText_unrecorded (entry : FunctionEntry) (names : LocalNames) :
    context.unrecorded.headText entry.edited names = context.headText entry names := by
  simp only [headText, parameterTexts_unrecorded, symbol_unrecorded]
  rfl

theorem blockLines_unrecorded (names : LocalNames) (block : BlockRef) :
    context.unrecorded.blockLines names block = context.blockLines names block := by
  have lines : context.unrecorded.instructionText names = context.instructionText names :=
    funext fun value => instructionText_unrecorded names value
  simp only [blockLines, lines]
  rfl

theorem functionText_unrecorded (entry : FunctionEntry) :
    context.unrecorded.functionText entry.edited = context.functionText entry := by
  have names : context.unrecorded.localNames entry.edited = context.localNames entry := rfl
  have blocks : context.unrecorded.blockLines = context.blockLines :=
    funext fun names => funext fun block => blockLines_unrecorded names block
  simp only [functionText, names, headText_unrecorded, blocks]
  rfl

/-- The printed module does not show the verdicts. -/
theorem moduleText_unrecorded : context.unrecorded.moduleText = context.moduleText := by
  have functions : context.unrecorded.functions.mapM context.unrecorded.functionText =
      context.functions.mapM context.functionText := by
    show (context.functions.map FunctionEntry.edited).mapM _ = _
    rw [List.mapM_map]
    exact congrArg context.functions.mapM (funext fun entry => functionText_unrecorded entry)
  rw [moduleText, moduleText, functions]
  rfl

/-! ### Answers -/

theorem functionName_unrecorded (function : FunctionId) :
    context.unrecorded.functionName function = context.functionName function :=
  resolveFunction_unrecorded_bind fun _ => rfl

theorem parameterAt_unrecorded (function : FunctionId) (position : Nat) :
    context.unrecorded.parameterAt function position = context.parameterAt function position :=
  resolveFunction_unrecorded_bind fun _ => rfl

theorem personality_unrecorded (function : FunctionId) :
    context.unrecorded.personality function = context.personality function :=
  resolveFunction_unrecorded_bind fun _ => rfl

theorem resolveSite_unrecorded_bind {α : Type} {function : FunctionId} {site : Site}
    {shown plain : FunctionEntry → Except Fault α}
    (same : ∀ entry, plain entry.edited = shown entry) :
    (context.unrecorded.resolveSite function site >>= plain) =
      (context.resolveSite function site >>= shown) := by
  unfold resolveSite
  rw [bind_assoc, bind_assoc]
  apply resolveFunction_unrecorded_bind
  intro entry
  show ((requireSite entry site >>= fun _ => pure entry.edited) >>= plain) = _
  cases requireSite entry site with
  | error fault => rfl
  | ok _ => exact same entry

theorem attributesAt_unrecorded (function : FunctionId) (site : Site) :
    context.unrecorded.attributesAt function site = context.attributesAt function site :=
  resolveSite_unrecorded_bind fun _ => rfl

theorem attribute?_unrecorded (function : FunctionId) (site : Site) (key : AttributeKey) :
    context.unrecorded.attribute? function site key = context.attribute? function site key :=
  resolveSite_unrecorded_bind fun _ => rfl

theorem alignment?_unrecorded (value : ValueId) :
    context.unrecorded.alignment? value = context.alignment? value := by
  simp only [alignment?, attribute?_unrecorded]
  rfl

end Context

namespace Query

/-- The answer shows recorded verdicts. -/
def AsksVerdicts : Query → Prop
  | .state _ | .summary _ => True
  | _ => False

theorem ownerIn_unrecorded (context : Context) (handle : Handle) :
    ownerIn context.unrecorded handle = ownerIn context handle := by
  cases handle with
  | function function => exact Context.resolveFunction_unrecorded_bind fun _ => rfl
  | _ => rfl

theorem answerIn_unrecorded {query : Query} (plain : ¬ query.AsksVerdicts) (context : Context) :
    query.answerIn context.unrecorded = query.answerIn context := by
  cases query with
  | owner handle => rw [answerIn, answerIn, ownerIn_unrecorded]
  | functions id =>
      rw [answerIn, answerIn]
      show (Except.ok _ : Except Fault Fact) = .ok _
      rw [Context.unrecorded, List.map_map]
      rfl
  | functionNamed id name =>
      rw [answerIn, answerIn, Context.functionNamed?_unrecorded]
      rfl
  | moduleText id => rw [answerIn, answerIn, Context.moduleText_unrecorded]
  | functionName function => rw [answerIn, answerIn, Context.functionName_unrecorded]
  | functionText function =>
      rw [answerIn, answerIn]
      apply Context.resolveFunction_unrecorded_bind
      intro entry
      rw [Context.functionText_unrecorded]
  | parameterAt function position => rw [answerIn, answerIn, Context.parameterAt_unrecorded]
  | personality function => rw [answerIn, answerIn, Context.personality_unrecorded]
  | alignment value => rw [answerIn, answerIn, Context.alignment?_unrecorded]
  | attributes function site => rw [answerIn, answerIn, Context.attributesAt_unrecorded]
  | attributeOf function site key => rw [answerIn, answerIn, Context.attribute?_unrecorded]
  | attributeCount function site => rw [answerIn, answerIn, Context.attributesAt_unrecorded]
  | signature function => exact Context.resolveFunction_unrecorded_bind fun _ => rfl
  | blocks function => exact Context.resolveFunction_unrecorded_bind fun _ => rfl
  | entryBlock function => exact Context.resolveFunction_unrecorded_bind fun _ => rfl
  | parameterCount function => exact Context.resolveFunction_unrecorded_bind fun _ => rfl
  | parameters function => exact Context.resolveFunction_unrecorded_bind fun _ => rfl
  | convention function => exact Context.resolveFunction_unrecorded_bind fun _ => rfl
  | conventionCode function => exact Context.resolveFunction_unrecorded_bind fun _ => rfl
  | hasPersonality function => exact Context.resolveFunction_unrecorded_bind fun _ => rfl
  | collector function => exact Context.resolveFunction_unrecorded_bind fun _ => rfl
  | state function => exact absurd trivial plain
  | summary id => exact absurd trivial plain
  | _ => rfl

end Query

/-! ### Stores -/

namespace Store

variable {store first second : Store}

/-- The store without the recorded verdicts of its contexts. -/
def unrecorded (store : Store) : Store :=
  { store with
    slots := store.slots.map fun slot => { slot with context := slot.context.map Context.unrecorded } }

theorem context?_unrecorded (id : ContextId) :
    store.unrecorded.context? id = (store.context? id).map Context.unrecorded := by
  unfold context? unrecorded
  rw [Array.getElem?_map]
  cases store.slots[id.index]? with
  | none => rfl
  | some slot =>
      show (if slot.generation = id.generation then _ else _) =
        Option.map Context.unrecorded (if slot.generation = id.generation then _ else _)
      by_cases same : slot.generation = id.generation
      · rw [if_pos same, if_pos same]
      · rw [if_neg same, if_neg same]
        rfl

/-- Stores that differ in recorded verdicts alone have the same live contexts, which differ in
recorded verdicts alone. -/
theorem context?_of_unrecorded_eq (same : first.unrecorded = second.unrecorded) {id : ContextId}
    {context : Context} (found : first.context? id = some context) :
    ∃ other, second.context? id = some other ∧ other.unrecorded = context.unrecorded := by
  have mapped : (second.context? id).map Context.unrecorded = some context.unrecorded := by
    rw [← context?_unrecorded, ← same, context?_unrecorded, found, Option.map_some]
  exact Option.map_eq_some_iff.mp mapped

theorem unrecorded_put {id : ContextId} {context changed : Context}
    (found : store.context? id = some context) (same : changed.unrecorded = context.unrecorded) :
    (store.put id.index changed).unrecorded = store.unrecorded := by
  obtain ⟨slot, lookup, _, held⟩ := context?_eq_some.mp found
  have slots : (store.put id.index changed).unrecorded.slots = store.unrecorded.slots := by
    apply Array.ext_getElem?
    intro index
    unfold unrecorded put
    rw [Array.getElem?_map, Array.getElem?_map, Array.getElem?_modify]
    by_cases here : id.index = index
    · rw [if_pos here, ← here, lookup]
      show some (⟨slot.generation, some changed.unrecorded⟩ : Slot) =
        some ⟨slot.generation, slot.context.map Context.unrecorded⟩
      rw [held, Option.map_some, same]
    · rw [if_neg here]
  exact congrArg (fun slots => (⟨store.settings, slots, store.free⟩ : Store)) slots

theorem unrecorded_recordState (function : FunctionId) (state : VerificationState) :
    (store.recordState function state).unrecorded = store.unrecorded := by
  unfold recordState
  cases found : store.context? function.context with
  | none => rfl
  | some context => exact unrecorded_put found (Context.unrecorded_recordState _ _)

/-- What reads a live context without its verdicts does not tell such stores apart. -/
theorem read_of_unrecorded_eq {α : Type} {query : Context → Except Fault α}
    (plain : ∀ context, query context.unrecorded = query context)
    (same : first.unrecorded = second.unrecorded) (id : ContextId) :
    first.read id query = second.read id query := by
  have stripped : ∀ store : Store, store.unrecorded.read id query = store.read id query := by
    intro store
    unfold read resolve
    rw [context?_unrecorded]
    cases store.context? id with
    | none => rfl
    | some context => exact plain context
  rw [← stripped first, same, stripped]

/-- No printed text and no other plain answer tells such stores apart. -/
theorem answer_of_unrecorded_eq {query : Query} (plain : ¬ query.AsksVerdicts)
    (same : first.unrecorded = second.unrecorded) : query.answer first = query.answer second :=
  read_of_unrecorded_eq (Query.answerIn_unrecorded plain) same query.home

end Store

/-! ### Engines -/

/-- Whether a function is broken, and the message, depend on a store without its recorded verdicts
alone. What the engine logs meanwhile may depend on anything. -/
def Engine.IgnoresRecords (engine : Engine σ) : Prop :=
  ∀ native first second function, first.unrecorded = second.unrecorded →
    (engine.verify native first function).broken =
        (engine.verify native second function).broken ∧
      (engine.verify native first function).message =
        (engine.verify native second function).message

namespace Context

variable {context : Context}

theorem personalityFindings_unrecorded (entry : FunctionEntry) :
    context.unrecorded.personalityFindings entry.edited = context.personalityFindings entry := by
  unfold personalityFindings
  have personality : entry.edited.personality = entry.personality := rfl
  rw [personality]
  cases entry.personality with
  | none => rfl
  | some personality =>
      dsimp only
      rw [function?_unrecorded, Option.isSome_map]
      rfl

theorem calleeViolations_unrecorded (code : Instruction) :
    context.unrecorded.calleeViolations code = context.calleeViolations code := by
  unfold calleeViolations
  cases code.callee? with
  | none => rfl
  | some callee =>
      dsimp only
      rw [function?_unrecorded, Option.isSome_map]
      rfl

theorem sequenceViolations_unrecorded (entry : FunctionEntry) (values : List ValueRef) :
    context.unrecorded.sequenceViolations entry.edited values =
      context.sequenceViolations entry values := by
  induction values with
  | nil => rfl
  | cons value rest inductionHypothesis =>
      rw [sequenceViolations, sequenceViolations, inductionHypothesis]
      simp only [instructionViolations, calleeViolations_unrecorded]
      rfl

theorem blockFindings_unrecorded (entry : FunctionEntry) (block : BlockRef) :
    context.unrecorded.blockFindings entry.edited block = context.blockFindings entry block := by
  simp only [blockFindings, blockViolations, sequenceViolations_unrecorded]
  rfl

theorem sequenceUseFindings_unrecorded (entry : FunctionEntry) (parents : Flow.Parents)
    (position : Nat) (block : BlockRef) (earlier values : List ValueRef) :
    context.unrecorded.sequenceUseFindings entry.edited parents position block earlier values =
      context.sequenceUseFindings entry parents position block earlier values := by
  induction values generalizing earlier with
  | nil => rfl
  | cons value rest inductionHypothesis =>
      rw [sequenceUseFindings, sequenceUseFindings, inductionHypothesis]
      rfl

theorem dominanceFindings_unrecorded (entry : FunctionEntry) (parents : Flow.Parents)
    (position : Nat) :
    context.unrecorded.dominanceFindings entry.edited parents position =
      context.dominanceFindings entry parents position := by
  simp only [dominanceFindings, sequenceUseFindings_unrecorded]
  rfl

theorem findings_unrecorded (reportUnreachable : Bool) (entry : FunctionEntry) :
    context.unrecorded.findings reportUnreachable entry.edited =
      context.findings reportUnreachable entry := by
  have blocks : context.unrecorded.blockFindings entry.edited = context.blockFindings entry :=
    funext fun block => blockFindings_unrecorded entry block
  have flow : context.unrecorded.flowGraph entry.edited = context.flowGraph entry := rfl
  have uses : context.unrecorded.dominanceFindings entry.edited =
      context.dominanceFindings entry :=
    funext fun parents => funext fun position => dominanceFindings_unrecorded entry parents position
  simp only [findings, bodyFindings, blocks, flow, uses, personalityFindings_unrecorded]
  rfl

theorem report_unrecorded (reportUnreachable : Bool) (entry : FunctionEntry) :
    context.unrecorded.report reportUnreachable entry.edited =
      context.report reportUnreachable entry := by
  rw [report, report, findings_unrecorded]
  rfl

end Context

/-- The structural check does not read recorded verdicts. -/
theorem Store.report_of_unrecorded_eq {first second : Store}
    (same : first.unrecorded = second.unrecorded) (function : FunctionId) :
    first.report function = second.report function := by
  have settings : first.unrecorded.settings = second.unrecorded.settings :=
    congrArg Store.settings same
  unfold report
  rw [show first.settings = second.settings from settings,
    read_of_unrecorded_eq (fun context => ?_) same]
  apply Context.resolveFunction_unrecorded_bind
  intro entry
  rw [Context.report_unrecorded]

theorem Engine.reference_ignoresRecords : Engine.reference.IgnoresRecords := by
  intro native first second function same
  have judgement : Engine.reference.verify native first function =
      Engine.reference.verify native second function :=
    congrArg (Judgement.ofReport function) (Store.report_of_unrecorded_eq same function)
  exact ⟨congrArg Judgement.broken judgement, congrArg Judgement.message judgement⟩

/-- A script goes by names, which are not what is recorded. -/
theorem Engine.scripted_ignoresRecords (script : Script) :
    (Engine.scripted script).IgnoresRecords := by
  intro native first second function same
  have scripted : script.judgement? first function = script.judgement? second function := by
    unfold Script.judgement?
    rw [Store.read_of_unrecorded_eq
      (fun context => Context.functionName_unrecorded function) same]
  have judgement : (Engine.scripted script).verify native first function =
      (Engine.scripted script).verify native second function := by
    unfold Engine.scripted
    dsimp only
    rw [scripted]
    cases script.judgement? second function with
    | some judgement => rfl
    | none => exact congrArg (Judgement.ofReport function) (Store.report_of_unrecorded_eq same _)
  exact ⟨congrArg Judgement.broken judgement, congrArg Judgement.message judgement⟩

end TypedIR
