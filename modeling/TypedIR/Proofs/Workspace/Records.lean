import Mathlib.Data.List.Induction
import TypedIR.Proofs.Check.Records
import TypedIR.Proofs.Workspace.Verification

/-!
Contract: recorded verdicts in workspaces of the reference engine.

Owns:
- what commands do to the record of a function: a verification makes it current, and
  nothing but a new name of the function makes a current record differ from the
  verdict of a check now;
- after every run, a record tells what verification would say now, with the same
  reasons unless the function got a new name since it was recorded.

Does not own: why a new name can change the reasons. It stands in their texts.
-/

namespace TypedIR

/-! ### Records in a context, and commands about them -/

/-- Every record in the context tells whether a check now accepts the function. -/
structure Context.Trusted (reportUnreachable : Bool) (context : Context) : Prop where
  coherent : context.Coherent
  faithful : ∀ function, context.Faithful reportUnreachable function

/-- If the context is that of the function, what is recorded of the function is current. -/
structure Context.CurrentOn (function : FunctionId) (reportUnreachable : Bool)
    (context : Context) : Prop where
  coherent : context.Coherent
  current : context.id = function.context → context.Current reportUnreachable function.index

/-- The effect is neither a verdict on the function nor a new name for it. -/
def FunctionId.Spared (function : FunctionId) (id : ContextId) (effect : Effect) : Prop :=
  id = function.context → effect ≠ .record function.index ∧ effect ≠ .rename function.index

/-- The command asks for a verdict on the function. -/
def Command.Verifies (settings : Settings) (function : FunctionId) : Command → Prop
  | .verify other => other = function
  | .verifyModule context => context = function.context
  | .emitModule context => settings.verifyBeforeEmit = true ∧ context = function.context
  | _ => False

namespace Workspace

variable {settings : Settings} {initial : ReferenceState} {workspace : Workspace ReferenceState}
  {function : FunctionId}

theorem keptBy_trusted (settings : Settings) :
    KeptBy Engine.reference settings (fun _ effect => effect.IsEdit)
      (Context.Trusted settings.reportUnreachable) where
  fresh := by
    intro id native name
    refine ⟨Context.coherent_empty id native name, fun function entry found => ?_⟩
    cases found
  step := by
    intro effect before after isEdit trusted change
    obtain ⟨owned, grounded, _⟩ := trusted.coherent
    exact ⟨trusted.coherent.step change, fun function =>
      (trusted.faithful function).step owned grounded change (isEdit function)⟩
  verified := by
    rintro workspace function context name rfl found trusted named
    obtain ⟨owned, grounded, _⟩ := trusted.coherent
    obtain ⟨entry, live, judged⟩ := Context.ofJudgement_verify found named
    have change : Change workspace.store.settings (.record function.index) context _ :=
      .record function.index
        (context.verdict workspace.store.settings.reportUnreachable entry).state
    rw [judged]
    exact ⟨trusted.coherent.step change, fun other =>
      (trusted.faithful other).recordState owned grounded live⟩

theorem keptBy_currentOn (settings : Settings) (function : FunctionId) :
    KeptBy Engine.reference settings function.Spared
      (Context.CurrentOn function settings.reportUnreachable) where
  fresh := by
    intro id native name
    refine ⟨Context.coherent_empty id native name, fun _ entry found => ?_⟩
    cases found
  step := by
    intro effect before after spared held change
    obtain ⟨owned, grounded, _⟩ := held.coherent
    refine ⟨held.coherent.step change, fun home => ?_⟩
    rw [change.id_eq] at home
    obtain ⟨noRecord, sameName⟩ := spared home
    exact (held.current home).step owned grounded change noRecord sameName
  verified := by
    rintro workspace other context name rfl found held named
    obtain ⟨owned, grounded, _⟩ := held.coherent
    obtain ⟨entry, live, judged⟩ := Context.ofJudgement_verify found named
    have change : Change workspace.store.settings (.record other.index) context _ :=
      .record other.index (context.verdict workspace.store.settings.reportUnreachable entry).state
    rw [judged]
    exact ⟨held.coherent.step change, fun home =>
      (held.current home).recordState owned grounded live⟩

/-! ### Verification -/

/-- The function is live, in a live context. -/
def Live (workspace : Workspace ReferenceState) (function : FunctionId) : Prop :=
  ∃ context entry, workspace.store.context? function.context = some context ∧
    context.function? function.index = some entry

/-- Nothing is recorded of a function that is not live. -/
theorem Every.currentOn_of_not_live (every : workspace.Every settings Context.Coherent)
    (released : ¬ workspace.Live function) :
    workspace.Every settings (Context.CurrentOn function settings.reportUnreachable) where
  settings := every.settings
  contexts := by
    intro id context found
    obtain ⟨sameId, coherent⟩ := every.contexts id context found
    refine ⟨sameId, coherent, fun home entry live => ?_⟩
    rw [← sameId, home] at found
    exact absurd ⟨context, entry, found, live⟩ released

theorem Every.currentOn_verify (every : workspace.Every settings Context.Coherent)
    (function : FunctionId) :
    Every settings (Context.CurrentOn function settings.reportUnreachable)
      (Action.verify Engine.reference function workspace).workspace := by
  by_cases live : workspace.Live function
  · obtain ⟨context, entry, found, lookup⟩ := live
    obtain ⟨sameId, coherent⟩ := every.contexts _ context found
    obtain ⟨_, recorded⟩ := Action.verify_live found sameId coherent.owned lookup
    rw [recorded, every.settings, Store.recordState_eq found]
    have change : Change settings (.record function.index) context _ :=
      .record function.index (context.verdict settings.reportUnreachable entry).state
    have current : Context.Current _ settings.reportUnreachable function.index :=
      Context.current_recordState coherent.owned coherent.grounded lookup
    refine every.put found ⟨coherent.step change, fun _ => current⟩ rfl ?_
    intro id other apart otherId otherCoherent
    exact ⟨otherCoherent, fun home => absurd (otherId.symm.trans home) apart⟩
  · exact Every.verified (keptBy_currentOn settings function) function _
      (every.currentOn_of_not_live live)

/-- A verdict releases nothing. -/
theorem Live.verify (every : workspace.Every settings Context.Coherent) {other : FunctionId}
    (otherLive : workspace.Live other) (live : workspace.Live function) :
    (Action.verify Engine.reference function workspace).workspace.Live other := by
  obtain ⟨context, entry, found, lookup⟩ := live
  obtain ⟨otherContext, otherEntry, otherFound, otherLookup⟩ := otherLive
  obtain ⟨sameId, coherent⟩ := every.contexts _ context found
  obtain ⟨_, recorded⟩ := Action.verify_live found sameId coherent.owned lookup
  rw [recorded, Store.recordState_eq found]
  unfold Live
  simp only [Store.context?_put found]
  by_cases same : other.context = function.context
  · obtain rfl := Option.some.inj ((same ▸ otherFound).symm.trans found)
    have was : otherContext.IsFunction other.index :=
      Context.isSome_function?.mp (Option.isSome_iff_exists.mpr ⟨otherEntry, otherLookup⟩)
    have kept : ∀ state,
        (otherContext.recordState function.index state).IsFunction other.index := by
      refine fun state => (Context.isFunction_map rfl fun entry => ?_).mpr was
      split <;> rfl
    obtain ⟨changed, changedLookup⟩ :=
      Option.isSome_iff_exists.mp (Context.isSome_function?.mpr (kept _))
    exact ⟨_, changed, if_pos same, changedLookup⟩
  · exact ⟨otherContext, otherEntry, (if_neg same).trans otherFound, otherLookup⟩

/-- Verifying several live functions makes the record of each of them current: the verdicts that
follow do not touch it. -/
theorem Every.currentOn_verifyEach (every : workspace.Every settings Context.Coherent)
    {functions : List FunctionId} (live : ∀ other ∈ functions, workspace.Live other)
    (listed : function ∈ functions) :
    Every settings (Context.CurrentOn function settings.reportUnreachable)
      (Action.verifyEach Engine.reference functions workspace).workspace := by
  induction functions generalizing workspace with
  | nil => cases listed
  | cons first rest inductionHypothesis =>
      have firstLive := live first List.mem_cons_self
      obtain ⟨context, entry, found, lookup⟩ := firstLive
      obtain ⟨sameId, coherent⟩ := every.contexts _ context found
      obtain ⟨result, _⟩ := Action.verify_live found sameId coherent.owned lookup
      have unfolded : Action.verifyEach Engine.reference (first :: rest) workspace =
          (Action.verify Engine.reference first >>= fun verdict =>
            Action.verifyEach Engine.reference rest >>= fun reasons =>
              pure (verdict.reasons ++ reasons)) workspace := rfl
      rw [unfolded, Action.workspace_bind result, Action.workspace_bind_quiet fun _ _ => rfl]
      rcases List.mem_cons.mp listed with rfl | later
      · exact Action.preserves_verifyEach (Every.verified (keptBy_currentOn settings function)) rest
          _ (every.currentOn_verify function)
      · refine inductionHypothesis ?_ ?_ later
        · exact Every.verified (keptBy_coherent Engine.reference settings) first _ every
        · exact fun other member => (live other (List.mem_cons_of_mem _ member)).verify every
            (live first List.mem_cons_self)

theorem Every.currentOn_verifyModule (every : workspace.Every settings Context.Coherent)
    (function : FunctionId) :
    Every settings (Context.CurrentOn function settings.reportUnreachable)
      (Action.verifyModule Engine.reference function.context workspace).workspace := by
  by_cases live : workspace.Live function
  · obtain ⟨context, entry, found, lookup⟩ := live
    obtain ⟨sameId, coherent⟩ := every.contexts _ context found
    obtain ⟨member, self⟩ := Context.mem_of_function? lookup
    have functions : (Action.inspect (Action.functionsOf function.context) workspace).result =
        .ok (context.functions.map fun entry => context.functionId entry.self) :=
      bind_eq_ok.mpr ⟨context, Store.resolve_eq_ok.mpr found, rfl⟩
    unfold Action.verifyModule
    rw [Action.workspace_bind functions, Action.workspace_bind_quiet fun _ _ => rfl]
    refine Every.currentOn_verifyEach every ?_ ?_
    · intro other listed
      obtain ⟨otherEntry, otherMember, rfl⟩ := List.mem_map.mp listed
      have sameHome : (context.functionId otherEntry.self).context = function.context := sameId
      rw [← sameHome] at found
      exact ⟨context, otherEntry, found,
        Context.function?_of_mem coherent.owned.functions.distinct otherMember⟩
    · refine List.mem_map.mpr ⟨entry, member, ?_⟩
      rw [Context.functionId, sameId, self]
  · exact Action.preserves_verifyModule (Every.verified (keptBy_currentOn settings function)) _ _
      (every.currentOn_of_not_live live)

/-! ### Commands -/

/-- After a command that asks for a verdict on the function, its record is current. -/
theorem Every.currentOn_of_verifies (every : workspace.Every settings Context.Coherent)
    {command : Command} (verifies : command.Verifies settings function) :
    Every settings (Context.CurrentOn function settings.reportUnreachable)
      (after Engine.reference workspace command) := by
  cases command with
  | verify other =>
      obtain rfl : other = function := verifies
      unfold after Command.run
      rw [Action.workspace_bind_quiet fun _ _ => rfl]
      exact every.currentOn_verify other
  | verifyModule context =>
      obtain rfl : context = function.context := verifies
      unfold after Command.run
      rw [Action.workspace_bind_quiet fun _ _ => rfl]
      exact every.currentOn_verifyModule function
  | emitModule context =>
      obtain ⟨first, rfl⟩ := verifies
      rw [← every.settings] at first
      unfold after Command.run
      rw [Action.workspace_bind_quiet fun _ _ => rfl, Action.workspace_emitModule first]
      exact every.currentOn_verifyModule function
  | _ => exact verifies.elim

/-- A command that gives the function no new name does not touch its record, or makes it
current. -/
theorem Every.currentOn_command {command : Command}
    (other : ∀ name, command ≠ .edit (.rename function.toValue name))
    (every : workspace.Every settings (Context.CurrentOn function settings.reportUnreachable)) :
    Every settings (Context.CurrentOn function settings.reportUnreachable)
      (after Engine.reference workspace command) := by
  refine Every.command (keptBy_currentOn settings function) ?_ workspace every
  cases command with
  | edit change =>
      intro home
      refine ⟨change.effect_isEdit function.index, fun renames => ?_⟩
      cases change with
      | rename value name =>
          apply other name
          have sameIndex : value.index = function.index := Effect.rename.inj renames
          have sameHome : value.context = function.context := home
          obtain ⟨valueContext, valueIndex⟩ := value
          cases sameHome
          cases sameIndex
          rfl
      | _ => cases renames
  | setConvention changed code =>
      intro home
      constructor
      · exact fun equal => by cases equal
      · exact fun equal => by cases equal
  | _ => trivial

/-! ### Runs -/

/-- After some of the commands the function got a new name, and no later command asks for a
verdict on it. -/
def RenamedSince (settings : Settings) (initial : ReferenceState) (commands : List Command)
    (function : FunctionId) : Prop :=
  ∃ earlier name later,
    commands = earlier ++ .edit (.rename function.toValue name) :: later ∧
      ((Command.edit (.rename function.toValue name)).run Engine.reference
        (afterAll Engine.reference (start settings initial) earlier)).result = .ok .done ∧
      ∀ command ∈ later, ¬ command.Verifies settings function

theorem RenamedSince.concat {commands : List Command}
    (renamed : RenamedSince settings initial commands function) {command : Command}
    (noVerdict : ¬ command.Verifies settings function) :
    RenamedSince settings initial (commands ++ [command]) function := by
  obtain ⟨earlier, name, later, rfl, done, silent⟩ := renamed
  refine ⟨earlier, name, later ++ [command], by simp, done, ?_⟩
  intro other listed
  rcases List.mem_append.mp listed with before | last
  · exact silent other before
  · rwa [List.mem_singleton.mp last]

/-- A rename is refused and changes nothing, or is done. -/
theorem rename_cases {σ : Type} (engine : Engine σ) (workspace : Workspace σ) (value : ValueId)
    (name : String) :
    after engine workspace (.edit (.rename value name)) = workspace ∨
      ((Command.edit (.rename value name)).run engine workspace).result = .ok .done := by
  rcases Action.perform_cases ((Edit.rename value name).operation workspace.store.settings)
    workspace with ⟨_, _, same⟩ | ⟨home, answer, changed, _, done, succeeded, _⟩
  · exact .inl same
  · obtain ⟨_, _, rfl⟩ := Operation.map_eq_ok.mp done
    exact .inr succeeded

/-- After every run, what is recorded of the function is current, or the function got a new name
since it was recorded. The induction goes along the run, from its first command on. -/
theorem currentOn_or_renamed (settings : Settings) (initial : ReferenceState)
    (function : FunctionId) (commands : List Command) :
    Every settings (Context.CurrentOn function settings.reportUnreachable)
        (afterAll Engine.reference (start settings initial) commands) ∨
      RenamedSince settings initial commands function := by
  induction commands using List.reverseRecOn with
  | nil => exact .inl (every_start settings _)
  | append_singleton commands command inductionHypothesis =>
      rw [afterAll_concat]
      by_cases verifies : command.Verifies settings function
      · have every : Every settings Context.Coherent
            (afterAll Engine.reference (start settings initial) commands) :=
          every_afterAll (keptBy_coherent Engine.reference settings) commands
        exact .inl (every.currentOn_of_verifies verifies)
      · rcases inductionHypothesis with current | renamed
        · by_cases other : ∀ name, command ≠ .edit (.rename function.toValue name)
          · exact .inl (current.currentOn_command other)
          · simp only [not_forall, not_not] at other
            obtain ⟨name, rfl⟩ := other
            rcases rename_cases Engine.reference
              (afterAll Engine.reference (start settings initial) commands) function.toValue name
              with same | done
            · rw [same]
              exact .inl current
            · exact .inr ⟨commands, name, [], rfl, done, by simp⟩
        · exact .inr (renamed.concat verifies)

/-- After every run, the recorded verdict on a live function is the one that verification would
give, but for the reasons against a function with a new name. -/
theorem recorded_verdict_current (settings : Settings) (initial : ReferenceState)
    (commands : List Command) {context : Context} {entry : FunctionEntry}
    (found : (afterAll Engine.reference (start settings initial) commands).store.context?
      function.context = some context)
    (live : context.function? function.index = some entry) :
    (entry.state = .verified →
      (Action.verify Engine.reference function
        (afterAll Engine.reference (start settings initial) commands)).result = .ok .valid) ∧
      ∀ reasons, entry.state = .invalid reasons → ∃ now,
        (Action.verify Engine.reference function
          (afterAll Engine.reference (start settings initial) commands)).result =
          .ok (.invalid now) ∧
        (now = reasons ∨ RenamedSince settings initial commands function) := by
  have every : Every settings (Context.Trusted settings.reportUnreachable)
      (afterAll Engine.reference (start settings initial) commands) :=
    every_afterAll (keptBy_trusted settings) commands
  obtain ⟨sameId, trusted⟩ := every.contexts _ context found
  obtain ⟨result, _⟩ := Action.verify_live found sameId trusted.coherent.owned live
  rw [result, every.settings]
  have faithful := trusted.faithful function.index entry live
  constructor
  · intro verified
    rw [verified] at faithful
    have valid := (faithful.resolve_left fun equal => by cases equal).mpr rfl
    rw [valid]
  · intro reasons invalid
    rw [invalid] at faithful
    have rejected : context.verdict settings.reportUnreachable entry ≠ .valid := fun valid => by
      have equal := (faithful.resolve_left fun equal => by cases equal).mp valid
      cases equal
    cases verdict : context.verdict settings.reportUnreachable entry with
    | valid => exact absurd verdict rejected
    | invalid now =>
        refine ⟨now, rfl, ?_⟩
        apply (currentOn_or_renamed settings initial function commands).imp_left
        intro current
        have recorded := (current.contexts _ context found).2.current sameId entry live
        rw [invalid, verdict] at recorded
        have same := recorded.resolve_left fun equal => by cases equal
        exact VerificationState.invalid.inj same

/-- The record of the sample's function outlives a new name of the function. -/
theorem sampleRun_recorded :
    ∃ context entry, (afterAll Engine.reference (start .standard .start)
        (sampleRun ++ [.edit (.rename ⟨⟨0, 0⟩, 0⟩ "g")])).store.context? ⟨0, 0⟩ = some context ∧
      context.function? 0 = some entry ∧ entry.state = .verified ∧
      (Action.verify Engine.reference ⟨⟨0, 0⟩, 0⟩ (afterAll Engine.reference
        (start .standard .start) (sampleRun ++ [.edit (.rename ⟨⟨0, 0⟩, 0⟩ "g")]))).result =
        .ok .valid := by
  have recorded : (((afterAll Engine.reference (start .standard .start)
      (sampleRun ++ [.edit (.rename ⟨⟨0, 0⟩, 0⟩ "g")])).store.context? ⟨0, 0⟩).bind fun context =>
        (context.function? 0).map fun entry => entry.state) = some .verified := by decide +kernel
  obtain ⟨context, found, rest⟩ := Option.bind_eq_some_iff.mp recorded
  obtain ⟨entry, lookup, verified⟩ := Option.map_eq_some_iff.mp rest
  have accepted := (@recorded_verdict_current ⟨⟨0, 0⟩, 0⟩ .standard .start _ context entry found
    lookup).1 verified
  exact ⟨context, entry, found, lookup, verified, accepted⟩

end Workspace

end TypedIR
