import TypedIR.Proofs.Print.Summary
import TypedIR.Proofs.Workspace.Unrecorded

/-!
Contract: verification of functions and modules, for any engine.

Owns:
- the verdict of an engine on a function, which gives a reason whenever it is not
  favourable;
- what verification of one function, of several and of a module comes to: its result and
  all that it changes;
- for engines that ignore recorded verdicts: a module is verified exactly if all of its
  functions are.

Does not own: what an engine finds wrong with a function.
-/

namespace TypedIR

variable {σ : Type} {engine : Engine σ} {initial : σ} {workspace : Workspace σ}

/-! ### Verdicts -/

namespace Verdict

theorem ofJudgement_eq_valid {name function : String} {judgement : Judgement} :
    ofJudgement name function judgement = .valid ↔ judgement.broken = false := by
  rcases ofJudgement_cases name function judgement with ⟨sound, valid⟩ | ⟨broken, reasons, invalid⟩
  · exact iff_of_true valid sound
  · refine iff_of_false (fun valid => ?_) fun sound => ?_
    · cases invalid.symm.trans valid
    · exact Bool.false_ne_true (sound.symm.trans broken)

/-- Whatever the message, a verdict against a function has a reason. -/
theorem exists_reason_of_ofJudgement {name function : String} {judgement : Judgement}
    (against : ofJudgement name function judgement ≠ .valid) :
    ∃ reason reasons, ofJudgement name function judgement = .invalid (reason :: reasons) := by
  have broken : judgement.broken = true := by
    rw [ne_eq, ofJudgement_eq_valid] at against
    exact Bool.not_eq_false _ ▸ against
  unfold ofJudgement
  rw [if_pos broken]
  cases lines : Text.lines judgement.message with
  | nil => exact ⟨_, [], rfl⟩
  | cons reason reasons => exact ⟨reason, reasons, rfl⟩

theorem ofJudgement_congr {name function : String} {first second : Judgement}
    (broken : first.broken = second.broken) (message : first.message = second.message) :
    ofJudgement name function first = ofJudgement name function second := by
  unfold ofJudgement
  rw [broken, message]

theorem reasons_of_state (verdict : Verdict) : verdict.state.reasons = verdict.reasons := by
  cases verdict <;> rfl

theorem ofReasons_eq_valid {reasons : List String} :
    ofReasons reasons = .valid ↔ reasons = [] := by
  cases reasons <;> simp [ofReasons]

theorem ofReasons_eq_invalid {reasons : List String} (against : ofReasons reasons ≠ .valid) :
    ofReasons reasons = .invalid reasons := by
  cases reasons with
  | nil => exact absurd rfl against
  | cons reason rest => rfl

theorem reasons_ofReasons (given : List String) : (ofReasons given).reasons = given := by
  cases given <;> rfl

end Verdict

namespace Workspace

/-- What the engine says of a function, under the name that the function has. -/
def verdict (engine : Engine σ) (workspace : Workspace σ) (function : FunctionId) : Verdict :=
  .ofJudgement engine.name
    (((workspace.store.context? function.context).bind fun context =>
      context.functionName? function.index).getD "")
    (engine.verify workspace.native workspace.store function)

/-- What the engine says of the functions of a context, in their order. -/
def verdicts (engine : Engine σ) (workspace : Workspace σ) (context : Context) : List Verdict :=
  context.functions.map fun entry => workspace.verdict engine (context.functionId entry.self)

/-- Recorded verdicts do not influence the verdicts of an engine that ignores them. -/
theorem verdict_of_unrecorded_eq (ignores : engine.IgnoresRecords) {first second : Workspace σ}
    (native : first.native = second.native)
    (same : first.store.unrecorded = second.store.unrecorded) (function : FunctionId) :
    first.verdict engine function = second.verdict engine function := by
  obtain ⟨broken, message⟩ := ignores second.native first.store second.store function same
  have named : ∀ store : Store, ((store.unrecorded.context? function.context).bind fun context =>
      context.functionName? function.index) = (store.context? function.context).bind fun context =>
        context.functionName? function.index := by
    intro store
    rw [Store.context?_unrecorded]
    cases store.context? function.context with
    | none => rfl
    | some context => exact Context.functionName?_unrecorded function.index
  unfold verdict
  rw [← named first.store, same, named, native]
  exact Verdict.ofJudgement_congr broken message

end Workspace

/-! ### Verification of functions -/

namespace Store

/-- The function is live, in a live context. -/
def Names (store : Store) (function : FunctionId) : Prop :=
  Succeeds (store.read function.context fun context => context.functionName function)

theorem names_of_unrecorded_eq {first second : Store} {function : FunctionId}
    (same : first.unrecorded = second.unrecorded) (named : first.Names function) :
    second.Names function := by
  unfold Names at named ⊢
  rwa [← read_of_unrecorded_eq (fun context => Context.functionName_unrecorded function) same]

end Store

namespace Action

/-- Verification of a live function gives the engine's verdict and records it. -/
theorem verify_named {function : FunctionId} (named : workspace.store.Names function) :
    (verify engine function workspace).result = .ok (workspace.verdict engine function) ∧
      (verify engine function workspace).workspace = { workspace with
        store := workspace.store.recordState function
          (workspace.verdict engine function).state } := by
  obtain ⟨name, read⟩ := named
  obtain ⟨context, found, known⟩ := Store.read_done read
  have verdict : workspace.verdict engine function = Verdict.ofJudgement engine.name name
      (engine.verify workspace.native workspace.store function) := by
    unfold Workspace.verdict
    rw [found, Option.bind_some, (Context.functionName_eq_ok.mp known).2, Option.getD_some]
  unfold verify
  rw [read]
  dsimp only
  rw [← verdict]
  exact ⟨rfl, rfl⟩

/-- Several live functions are verified one after the other. No verdict depends on what was
recorded before it. -/
theorem verifyEach_named (ignores : engine.IgnoresRecords) {functions : List FunctionId}
    (named : ∀ function ∈ functions, workspace.store.Names function) :
    (verifyEach engine functions workspace).result =
        .ok (functions.flatMap fun function => (workspace.verdict engine function).reasons) ∧
      (verifyEach engine functions workspace).workspace = { workspace with
        store := functions.foldl (fun store function =>
          store.recordState function (workspace.verdict engine function).state)
            workspace.store } := by
  induction functions generalizing workspace with
  | nil => exact ⟨rfl, rfl⟩
  | cons first rest inductionHypothesis =>
      obtain ⟨result, recorded⟩ := @verify_named _ engine _ _ (named first List.mem_cons_self)
      have same : (verify engine first workspace).workspace.store.unrecorded =
          workspace.store.unrecorded := by
        rw [recorded]
        exact Store.unrecorded_recordState _ _
      have native : (verify engine first workspace).workspace.native = workspace.native := by
        rw [recorded]
      have verdicts : (verify engine first workspace).workspace.verdict engine =
          workspace.verdict engine :=
        funext fun function => Workspace.verdict_of_unrecorded_eq ignores native same function
      have later : ∀ function ∈ rest,
          (verify engine first workspace).workspace.store.Names function :=
        fun function listed => Store.names_of_unrecorded_eq same.symm
          (named function (List.mem_cons_of_mem _ listed))
      obtain ⟨restResult, restRecorded⟩ := inductionHypothesis later
      rw [verdicts] at restResult restRecorded
      constructor
      · rw [verifyEach, result_bind result]
        exact (result_bind_pure _ _ _).trans (congrArg _ restResult)
      · rw [workspace_verifyEach_cons result, restRecorded, recorded]
        rfl

/-- Verification of a module verifies its functions in the order of their declaration. -/
theorem verifyModule_named (ignores : engine.IgnoresRecords) {id : ContextId}
    {functions : List FunctionId} (listed : functionsOf id workspace.store = .ok functions)
    (named : ∀ function ∈ functions, workspace.store.Names function) :
    (verifyModule engine id workspace).result = .ok (.ofReasons
        (functions.flatMap fun function => (workspace.verdict engine function).reasons)) ∧
      (verifyModule engine id workspace).workspace = { workspace with
        store := functions.foldl (fun store function =>
          store.recordState function (workspace.verdict engine function).state)
            workspace.store } := by
  have asked : (inspect (functionsOf id) workspace).result = .ok functions := listed
  obtain ⟨result, recorded⟩ := verifyEach_named ignores named
  constructor
  · rw [verifyModule, result_bind asked]
    exact (result_bind_pure _ _ _).trans (congrArg _ result)
  · rw [workspace_verifyModule listed, recorded]

/-! ### What verification leaves alone -/

/-- Verification changes recorded verdicts alone. -/
theorem preserves_unrecorded (store : Store) (native : σ) (function : FunctionId) :
    Preserves (fun workspace => workspace.store.unrecorded = store ∧ workspace.native = native)
      (verify engine function) := by
  intro workspace kept
  rcases verify_cases engine function workspace with ⟨_, _, same⟩ | verified
  · rwa [same]
  · obtain ⟨context, _, verdict, found, _, _, _, equal⟩ := verified
    rw [equal, ← Store.recordState_eq found]
    exact ⟨(Store.unrecorded_recordState _ _).trans kept.1, kept.2⟩

theorem unrecorded_verify (function : FunctionId) :
    (verify engine function workspace).workspace.store.unrecorded = workspace.store.unrecorded ∧
      (verify engine function workspace).workspace.native = workspace.native :=
  preserves_unrecorded _ _ function workspace ⟨rfl, rfl⟩

theorem unrecorded_verifyModule (id : ContextId) :
    (verifyModule engine id workspace).workspace.store.unrecorded = workspace.store.unrecorded ∧
      (verifyModule engine id workspace).workspace.native = workspace.native :=
  preserves_verifyModule (preserves_unrecorded _ _) id workspace ⟨rfl, rfl⟩

end Action

/-! ### Records of a whole module -/

namespace Context

variable {context : Context}

/-- The context with a verdict recorded on each function, in the order of the functions. -/
def recordAll (context : Context) (verdicts : List Verdict) : Context :=
  { context with
    functions := List.zipWith (fun entry verdict => { entry with state := verdict.state })
      context.functions verdicts }

/-- Verdicts recorded one after the other end up on the functions that they are about. -/
theorem foldl_recordState (verdict : ValueRef → Verdict) (functions : List ValueRef) :
    functions.foldl (fun context function =>
        context.recordState function (verdict function).state) context =
      { context with
        functions := context.functions.map fun entry =>
          if entry.self ∈ functions then { entry with state := (verdict entry.self).state }
          else entry } := by
  induction functions generalizing context with
  | nil => simp
  | cons first rest inductionHypothesis =>
      rw [List.foldl_cons, inductionHypothesis]
      have functions : ((context.recordState first (verdict first).state).functions.map fun entry =>
          if entry.self ∈ rest then { entry with state := (verdict entry.self).state }
          else entry) = context.functions.map fun entry =>
          if entry.self ∈ first :: rest then { entry with state := (verdict entry.self).state }
          else entry := by
        unfold recordState updateFunction
        rw [List.map_map]
        apply List.map_congr_left
        intro entry _
        by_cases same : entry.self = first
        · simp [same]
        · simp [same]
      rw [functions]
      rfl

theorem foldl_recordState_all (verdict : ValueRef → Verdict) :
    (context.functions.map FunctionEntry.self).foldl (fun context function =>
        context.recordState function (verdict function).state) context =
      context.recordAll (context.functions.map fun entry => verdict entry.self) := by
  have functions : (context.functions.map fun entry =>
      if entry.self ∈ context.functions.map FunctionEntry.self then
        { entry with state := (verdict entry.self).state }
      else entry) = List.zipWith (fun entry verdict => { entry with state := verdict.state })
        context.functions (context.functions.map fun entry => verdict entry.self) := by
    rw [List.zipWith_map_right, List.zipWith_self]
    apply List.map_congr_left
    intro entry member
    rw [if_pos (List.mem_map_of_mem member)]
  rw [foldl_recordState, functions]
  rfl

theorem states_recordAll {verdicts : List Verdict}
    (length : verdicts.length = context.functions.length) :
    (context.recordAll verdicts).functions.map FunctionEntry.state =
      verdicts.map Verdict.state := by
  show (List.zipWith _ context.functions verdicts).map _ = _
  rw [List.map_zipWith, ← List.map_uncurry_zip_eq_zipWith]
  have paired : (context.functions.zip verdicts).map Prod.snd = verdicts :=
    List.map_snd_zip (Nat.le_of_eq length)
  conv => rhs; rw [← paired, List.map_map]
  rfl

end Context

/-- The records of all functions of a live context, in the store. -/
theorem Store.foldl_recordState {store : Store} {id : ContextId} {context : Context}
    (found : store.context? id = some context) (verdict : FunctionId → Verdict)
    (functions : List ValueRef) :
    (functions.map fun function => (⟨id, function⟩ : FunctionId)).foldl
        (fun store function => store.recordState function (verdict function).state) store =
      store.put id.index (functions.foldl (fun context function =>
        context.recordState function (verdict ⟨id, function⟩).state) context) := by
  induction functions generalizing store context with
  | nil => exact (put_self found).symm
  | cons first rest inductionHypothesis =>
      have written : store.recordState ⟨id, first⟩ (verdict ⟨id, first⟩).state =
          store.put id.index (context.recordState first (verdict ⟨id, first⟩).state) :=
        recordState_eq found
      have foundAgain : (store.put id.index
          (context.recordState first (verdict ⟨id, first⟩).state)).context? id =
            some (context.recordState first (verdict ⟨id, first⟩).state) := by
        rw [context?_put found, if_pos rfl]
      rw [List.map_cons, List.foldl_cons, List.foldl_cons, written, inductionHypothesis foundAgain,
        put_put]

/-! ### The contract of verification -/

namespace Workspace

/-- What verification of a live function comes to: a verdict that agrees with the engine and gives a
reason if it is against the function. The verdict is recorded, which no plain query shows, and
asking again brings it again. -/
structure VerifiesFunction (engine : Engine σ) (workspace : Workspace σ) (function : FunctionId)
    (verdict : Verdict) : Prop where
  result : (Action.verify engine function workspace).result = .ok verdict
  judged : verdict = .valid ↔
    (engine.verify workspace.native workspace.store function).broken = false
  reasoned : verdict ≠ .valid → ∃ reason reasons, verdict = .invalid (reason :: reasons)
  records : (Action.verify engine function workspace).workspace =
    { workspace with store := workspace.store.recordState function verdict.state }
  shows : ∀ query : Query, ¬ query.AsksVerdicts →
    query.answer (Action.verify engine function workspace).workspace.store =
      query.answer workspace.store
  again : (Action.verify engine function
    (Action.verify engine function workspace).workspace).result = .ok verdict

/-- What verification of a live module comes to, given the verdicts on its functions: it is valid
exactly if all of them are, and otherwise has all their reasons in order. The overview of the
module agrees with it. -/
structure VerifiesModule (engine : Engine σ) (workspace : Workspace σ) (id : ContextId)
    (context : Context) (verdicts : List Verdict) (verdict : Verdict) : Prop where
  functions : List.Forall₂ (fun entry single =>
    VerifiesFunction engine workspace (context.functionId entry.self) single)
      context.functions verdicts
  result : (Action.verifyModule engine id workspace).result = .ok verdict
  conjunction : verdict = .valid ↔ ∀ single ∈ verdicts, single = .valid
  reasoned : verdict ≠ .valid → verdict = .invalid (verdicts.flatMap Verdict.reasons)
  records : (Action.verifyModule engine id workspace).workspace =
    { workspace with store := workspace.store.put id.index (context.recordAll verdicts) }
  shows : ∀ query : Query, ¬ query.AsksVerdicts →
    query.answer (Action.verifyModule engine id workspace).workspace.store =
      query.answer workspace.store
  again : (Action.verifyModule engine id
    (Action.verifyModule engine id workspace).workspace).result = .ok verdict
  overview : ∃ summary, (Query.summary id).answer
      (Action.verifyModule engine id workspace).workspace.store = .ok (.summary summary) ∧
    (summary.isVerified = true ↔ verdict = .valid) ∧
    (summary.functions.flatMap fun function => function.state.reasons) = verdict.reasons

variable {id : ContextId} {context : Context}

theorem functions_recordAll (engine : Engine σ) (workspace : Workspace σ) (context : Context) :
    (context.recordAll (workspace.verdicts engine context)).functions =
      context.functions.map fun entry =>
        { entry with
          state := (workspace.verdict engine (context.functionId entry.self)).state } := by
  unfold Context.recordAll verdicts
  rw [List.zipWith_map_right, List.zipWith_self]

theorem Reachable.names (reachable : Reachable engine initial workspace)
    (found : workspace.store.context? id = some context) {entry : FunctionEntry}
    (member : entry ∈ context.functions) :
    workspace.store.Names (context.functionId entry.self) := by
  obtain ⟨sameId, coherent⟩ := reachable.coherent found
  obtain ⟨name, named⟩ := Context.functionName_succeeds coherent.owned ⟨entry, member, rfl⟩
  have home : workspace.store.context? (context.functionId entry.self).context = some context := by
    rw [← found, ← sameId]
    rfl
  exact ⟨name, bind_eq_ok.mpr ⟨context, Store.resolve_eq_ok.mpr home, named⟩⟩

theorem verifiesFunction_of_names (ignores : engine.IgnoresRecords) {function : FunctionId}
    (named : workspace.store.Names function) :
    VerifiesFunction engine workspace function (workspace.verdict engine function) := by
  obtain ⟨result, recorded⟩ := @Action.verify_named _ engine _ _ named
  obtain ⟨same, native⟩ := @Action.unrecorded_verify _ engine workspace function
  have again := @Action.verify_named _ engine _ _ (Store.names_of_unrecorded_eq same.symm named)
  exact
    { result := result
      judged := Verdict.ofJudgement_eq_valid
      reasoned := Verdict.exists_reason_of_ofJudgement
      records := recorded
      shows := fun query plain => Store.answer_of_unrecorded_eq plain same
      again := by rw [again.1, verdict_of_unrecorded_eq ignores native same] }

/-- The reasons against a module are those against its functions, so there are none only if there
is nothing against any of them. -/
theorem ofReasons_eq_valid :
    Verdict.ofReasons ((workspace.verdicts engine context).flatMap Verdict.reasons) = .valid ↔
      ∀ single ∈ workspace.verdicts engine context, single = .valid := by
  rw [Verdict.ofReasons_eq_valid, List.flatMap_eq_nil_iff]
  refine forall₂_congr fun single listed => ?_
  constructor
  · intro none
    by_contra against
    obtain ⟨entry, _, rfl⟩ := List.mem_map.mp listed
    obtain ⟨reason, reasons, invalid⟩ := Verdict.exists_reason_of_ofJudgement against
    rw [verdict, invalid] at none
    cases none
  · rintro rfl
    rfl

/-- The records that verification of a module leaves, in one write. -/
theorem foldl_recordState_found (found : workspace.store.context? id = some context)
    (sameId : context.id = id) (verdict : FunctionId → Verdict) :
    (context.functions.map fun entry => context.functionId entry.self).foldl
        (fun store function => store.recordState function (verdict function).state)
          workspace.store =
      workspace.store.put id.index (context.recordAll (context.functions.map fun entry =>
        verdict (context.functionId entry.self))) := by
  subst sameId
  have listed : (context.functions.map fun entry => context.functionId entry.self) =
      (context.functions.map FunctionEntry.self).map fun function => ⟨context.id, function⟩ := by
    rw [List.map_map]
    rfl
  rw [listed, Store.foldl_recordState found,
    Context.foldl_recordState_all fun function => verdict ⟨context.id, function⟩]
  rfl

/-- An overview shows a module as verified exactly if it shows all of its functions so. -/
theorem isVerified_iff {summary : ModuleSummary} {verdicts : List Verdict}
    (states : summary.functions.map FunctionSummary.state = verdicts.map Verdict.state) :
    (summary.isVerified = true ↔ ∀ single ∈ verdicts, single = .valid) ∧
      (summary.functions.flatMap fun function => function.state.reasons) =
        verdicts.flatMap Verdict.reasons := by
  constructor
  · have shown : summary.isVerified = true ↔
        ∀ state ∈ summary.functions.map FunctionSummary.state, state = .verified := by
      simp [ModuleSummary.isVerified]
    rw [shown, states, List.forall_mem_map]
    exact forall₂_congr fun single _ => Verdict.state_eq_verified
  · calc (summary.functions.flatMap fun function => function.state.reasons)
        = (summary.functions.map FunctionSummary.state).flatMap VerificationState.reasons := by
          rw [List.flatMap_map]
      _ = verdicts.flatMap fun verdict => verdict.state.reasons := by
          rw [states, List.flatMap_map]
      _ = verdicts.flatMap Verdict.reasons := by
          simp only [Verdict.reasons_of_state]

/-- Verification of a live module, with the verdicts on its functions. -/
theorem Reachable.verifyModule (ignores : engine.IgnoresRecords)
    (reachable : Reachable engine initial workspace)
    (found : workspace.store.context? id = some context) :
    (Action.verifyModule engine id workspace).result =
        .ok (.ofReasons ((workspace.verdicts engine context).flatMap Verdict.reasons)) ∧
      (Action.verifyModule engine id workspace).workspace = { workspace with
        store := workspace.store.put id.index
          (context.recordAll (workspace.verdicts engine context)) } := by
  have named : ∀ function ∈ context.functions.map fun entry => context.functionId entry.self,
      workspace.store.Names function := by
    intro function member
    obtain ⟨entry, entryMember, rfl⟩ := List.mem_map.mp member
    exact reachable.names found entryMember
  obtain ⟨result, recorded⟩ :=
    Action.verifyModule_named ignores (Action.functionsOf_found found) named
  rw [foldl_recordState_found found (reachable.coherent found).1] at recorded
  rw [List.flatMap_map] at result
  refine ⟨result.trans ?_, recorded⟩
  rw [verdicts, List.flatMap_map]

/-- Later verification of a module, when only records have changed, brings the same result. -/
theorem verifyModule_again (ignores : engine.IgnoresRecords)
    (reachable : Reachable engine initial workspace)
    (found : workspace.store.context? id = some context) {later : Workspace σ}
    (laterReachable : Reachable engine initial later)
    (same : later.store.unrecorded = workspace.store.unrecorded)
    (native : later.native = workspace.native) :
    (Action.verifyModule engine id later).result =
      (Action.verifyModule engine id workspace).result := by
  obtain ⟨changed, foundLater, plain⟩ := Store.context?_of_unrecorded_eq same.symm found
  have verdicts : later.verdicts engine changed = workspace.verdicts engine context := by
    have shared : ∀ context : Context, later.verdicts engine context.unrecorded =
        workspace.verdicts engine context := by
      intro context
      unfold Workspace.verdicts Context.unrecorded
      rw [List.map_map]
      exact List.map_congr_left fun entry _ => verdict_of_unrecorded_eq ignores native same _
    have itself : later.verdicts engine changed.unrecorded = later.verdicts engine changed := by
      unfold Workspace.verdicts Context.unrecorded
      rw [List.map_map]
      rfl
    rw [← itself, plain, shared]
  rw [(laterReachable.verifyModule ignores foundLater).1, verdicts,
    (reachable.verifyModule ignores found).1]

theorem module_verification (ignores : engine.IgnoresRecords)
    (reachable : Reachable engine initial workspace)
    (found : workspace.store.context? id = some context) :
    ∃ verdicts verdict, VerifiesModule engine workspace id context verdicts verdict := by
  obtain ⟨result, recorded⟩ := reachable.verifyModule ignores found
  obtain ⟨same, native⟩ := @Action.unrecorded_verifyModule _ engine workspace id
  have later := reachable.after_command (.verifyModule id)
  rw [after_verifyModule] at later
  have functions : List.Forall₂ (fun entry single =>
      VerifiesFunction engine workspace (context.functionId entry.self) single)
        context.functions (workspace.verdicts engine context) := by
    unfold verdicts
    rw [List.forall₂_map_right_iff, List.forall₂_same]
    exact fun entry member => verifiesFunction_of_names ignores (reachable.names found member)
  have overview : ∃ summary, (Query.summary id).answer
        (Action.verifyModule engine id workspace).workspace.store = .ok (.summary summary) ∧
      summary.functions.map FunctionSummary.state =
        (workspace.verdicts engine context).map Verdict.state := by
    have foundLater : (Action.verifyModule engine id workspace).workspace.store.context? id =
        some (context.recordAll (workspace.verdicts engine context)) := by
      rw [recorded, Store.context?_put found, if_pos rfl]
    obtain ⟨summary, made, states⟩ :=
      Context.summarize_succeeds (later.canonical foundLater) (later.coherent foundLater).2
    have length : (workspace.verdicts engine context).length = context.functions.length :=
      List.length_map _
    exact ⟨summary, bind_eq_ok.mpr ⟨_, Store.resolve_eq_ok.mpr foundLater,
      bind_eq_ok.mpr ⟨summary, made, rfl⟩⟩, states.trans (Context.states_recordAll length)⟩
  obtain ⟨summary, shown, states⟩ := overview
  obtain ⟨verified, reasons⟩ := isVerified_iff states
  refine ⟨workspace.verdicts engine context,
    .ofReasons ((workspace.verdicts engine context).flatMap Verdict.reasons), ?_⟩
  exact
    { functions := functions
      result := result
      conjunction := ofReasons_eq_valid
      reasoned := Verdict.ofReasons_eq_invalid
      records := recorded
      shows := fun query plain => Store.answer_of_unrecorded_eq plain same
      again := (verifyModule_again ignores reachable found later same native).trans result
      overview := ⟨summary, shown, verified.trans ofReasons_eq_valid.symm,
        reasons.trans (Verdict.reasons_ofReasons _).symm⟩ }

/-- Three declarations. -/
def declaredRun : List Command :=
  let context : ContextId := ⟨0, 0⟩
  [.createContext "declared",
    .edit (.integerType context 32),
    .edit (.signatureType ⟨context, 0⟩ [] false),
    .edit (.declare context "f" ⟨context, 1⟩),
    .edit (.declare context "g" ⟨context, 1⟩),
    .edit (.declare context "h" ⟨context, 1⟩)]

/-- An engine that rejects one function without a word and another one in two lines. -/
def rejectingScript : Script where
  name := "scripted"
  accepted := none
  judgements := [("f", ⟨true, "", []⟩), ("h", ⟨true, "first\nsecond", []⟩)]
  written := none

/-- The empty message counts as a reason, and the reasons stand in the order of the functions. -/
theorem declaredRun_rejected :
    ∃ context verdicts,
      (afterAll (.scripted rejectingScript) (start .standard .start) declaredRun).store.context?
          ⟨0, 0⟩ = some context ∧ context.functions.length = 3 ∧
        VerifiesModule (.scripted rejectingScript)
          (afterAll (.scripted rejectingScript) (start .standard .start) declaredRun) ⟨0, 0⟩
          context verdicts
          (.invalid ["@f: rejected by the scripted engine", "first", "second"]) := by
  have live : ((afterAll (.scripted rejectingScript) (start .standard .start)
      declaredRun).store.context? ⟨0, 0⟩).map (fun context => context.functions.length) =
        some 3 := by decide +kernel
  have rejected : (Action.verifyModule (.scripted rejectingScript) ⟨0, 0⟩
      (afterAll (.scripted rejectingScript) (start .standard .start) declaredRun)).result =
        .ok (.invalid ["@f: rejected by the scripted engine", "first", "second"]) := by
    decide +kernel
  obtain ⟨context, found, counted⟩ := Option.map_eq_some_iff.mp live
  obtain ⟨verdicts, verdict, verifies⟩ := module_verification
    (Engine.scripted_ignoresRecords rejectingScript) ⟨.standard, declaredRun, rfl⟩ found
  obtain rfl := Except.ok.inj (verifies.result.symm.trans rejected)
  exact ⟨context, verdicts, found, counted, verifies⟩

end Workspace

end TypedIR
