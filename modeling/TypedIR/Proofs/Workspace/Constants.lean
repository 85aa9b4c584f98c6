import TypedIR.Proofs.Check.Order
import TypedIR.Proofs.Ownership.Constants
import TypedIR.Proofs.Workspace.Deals

/-!
Contract: constants in the course of a run.

Owns:
- constants in constants, at any depth, are constants other than functions;
- at all times every constant has the type that its kind asks for, and it stays as it is until its
  context is destroyed;
- the same of a constant that a command has just built.
-/

namespace TypedIR

/-! ### Constants in constants -/

namespace Context

variable {settings : Settings} {context : Context} {value part : ValueRef} {type : TypeRef}
  {kind : ValueKind}

theorem ConstantsFormed.typed (formed : context.ConstantsFormed)
    (canonical : context.Canonical settings) (owned : context.Owned)
    (held : context.Holds value type kind) (isData : kind.isData = true) :
    context.TypesConstant type kind :=
  (formed value type kind held isData).types canonical owned

/-- What a constant refers to are its parts. -/
theorem ConstantsFormed.refersTo (formed : context.ConstantsFormed)
    (canonical : context.Canonical settings) (owned : context.Owned)
    (data : context.HoldsData value type) (refers : context.RefersTo value part) :
    ∃ type, context.HoldsData part type := by
  obtain ⟨kind, held, isData⟩ := data
  obtain ⟨_, other, same, member⟩ := refers
  obtain ⟨_, rfl⟩ := held.unique same
  refine (formed.typed canonical owned held isData).parts ?_
  cases kind with
  | instruction block code => cases isData
  | _ => exact member

theorem ConstantsFormed.transGen (formed : context.ConstantsFormed)
    (canonical : context.Canonical settings) (owned : context.Owned)
    (data : context.HoldsData value type)
    (refers : Relation.TransGen context.RefersTo value part) :
    ∃ type, context.HoldsData part type := by
  induction refers with
  | single refers => exact formed.refersTo canonical owned data refers
  | tail _ refers inductionHypothesis =>
      obtain ⟨_, inside⟩ := inductionHypothesis
      exact formed.refersTo canonical owned inside refers

end Context

namespace Workspace

variable {σ : Type} {settings : Settings}

/-! ### Constants at all times -/

theorem constantsFormed_pursue (settings : Settings) (native : σ) (run : List (Engine σ × Task)) :
    ((start settings native).pursue run).1.Every settings fun context =>
      context.Coherent ∧ context.Canonical settings ∧ context.ConstantsFormed := by
  have kept : Context.Invariant settings fun context =>
      context.Canonical settings ∧ context.ConstantsFormed :=
    fun _ _ _ coherent ⟨canonical, formed⟩ change =>
      ⟨canonical.step change, formed.step coherent.owned change⟩
  exact every_pursue (fun id home name =>
    ⟨Context.canonical_empty settings id home name, Context.constantsFormed_empty id home name⟩)
    kept native run

/-- A constant other than a function stays as long as its context. -/
theorem data_stays (settings : Settings) (native : σ) (earlier : List (Engine σ × Task))
    {id : ContextId} {context : Context} {value : ValueRef} {type : TypeRef} {kind : ValueKind}
    (found : ((start settings native).pursue earlier).1.store.context? id = some context)
    (held : context.Holds value type kind) (isData : kind.isData = true)
    {later : List (Engine σ × Task)} (spared : ∀ step ∈ later, step.2.target? ≠ some id) :
    ∃ last, (((start settings native).pursue earlier).1.pursue later).1.store.context? id =
        some last ∧ last.Holds value type kind := by
  have accountable := accountable_pursue (accountable_start settings native) earlier
  obtain ⟨last, lives, _⟩ := pursue_stays accountable found spared
  have within : Store.Lasting.Within settings Store.Sound
      ((start settings native).pursue earlier).1 :=
    Store.lasting_sound.pursue ⟨every_start settings _, Store.sound_empty settings⟩ earlier
  have kept : Context.Invariant settings fun context => context.Holds value type kind :=
    fun _ _ _ coherent held change => coherent.owned.data_step change held isData
  exact ⟨last, lives, holds_pursue within kept found held later lives⟩

/-- A command as the first step of a run. -/
theorem pursue_command (engine : Engine σ) (workspace : Workspace σ) (command : Command)
    (later : List (Engine σ × Task)) :
    (workspace.pursue ((engine, .request (.command command)) :: later)).1 =
      ((command.run engine workspace).workspace.pursue later).1 := by
  have same : (Task.run engine workspace (.request (.command command))).1 =
      (command.run engine workspace).workspace := Request.workspace_run _ _
  rw [pursue, same]

/-- What a command has built is there from then on, and has the type that its kind asks for. -/
theorem built_data_stays (settings : Settings) (native : σ) (earlier : List (Engine σ × Task))
    (engine : Engine σ) (command : Command) {id : ContextId} {context : Context} {value : ValueRef}
    {type : TypeRef} {kind : ValueKind}
    (built : (command.run engine
      ((start settings native).pursue earlier).1).workspace.store.context? id = some context)
    (held : context.Holds value type kind) (isData : kind.isData = true)
    {later : List (Engine σ × Task)} (spared : ∀ step ∈ later, step.2.target? ≠ some id) :
    ∃ last, ((command.run engine
        ((start settings native).pursue earlier).1).workspace.pursue later).1.store.context? id =
          some last ∧
      last.Holds value type kind ∧ last.Coherent ∧ last.TypesConstant type kind := by
  -- The command is a step of the run, in front of the later ones.
  have whole : ((start settings native).pursue
      (earlier ++ [(engine, .request (.command command))])).1 =
        (command.run engine ((start settings native).pursue earlier).1).workspace := by
    rw [pursue_append]
    exact pursue_command engine _ _ []
  rw [← whole] at built ⊢
  obtain ⟨last, lasts, still⟩ := data_stays settings native _ built held isData spared
  have lives := lasts
  rw [← congrArg Prod.fst (pursue_append _ _ _)] at lives
  obtain ⟨_, coherent, canonical, formed⟩ :=
    (constantsFormed_pursue settings native _).contexts id last lives
  exact ⟨last, lasts, still, coherent, formed.typed canonical coherent.owned still isData⟩

/-- At all times, a constant other than a function has the type that its kind asks for, and all that
it is made of, at any depth, are such constants. It stays as it is until its context is
destroyed. -/
theorem constants_permanent (settings : Settings) (native : σ) (earlier : List (Engine σ × Task))
    {id : ContextId} {context : Context} {value : ValueRef} {type : TypeRef} {kind : ValueKind}
    (found : ((start settings native).pursue earlier).1.store.context? id = some context)
    (held : context.Holds value type kind) (isData : kind.isData = true) :
    context.TypesConstant type kind ∧
      (∀ part, Relation.TransGen context.RefersTo value part →
        ∃ type, context.HoldsData part type) ∧
      ∀ later : List (Engine σ × Task), (∀ step ∈ later, step.2.target? ≠ some id) →
        ∃ last, (((start settings native).pursue earlier).1.pursue later).1.store.context? id =
            some last ∧ last.Holds value type kind := by
  obtain ⟨_, coherent, canonical, formed⟩ :=
    (constantsFormed_pursue settings native earlier).contexts id context found
  exact ⟨formed.typed canonical coherent.owned held isData,
    fun part refers => formed.transGen canonical coherent.owned ⟨kind, held, isData⟩ refers,
    fun _ spared => data_stays settings native earlier found held isData spared⟩

/-- A struct that holds an array and an integer, beside a function. -/
def structRun : List (Engine ReferenceState × Task) :=
  let context : ContextId := ⟨0, 0⟩
  let commands : List Command :=
    [.createContext "constants",
      .edit (.integerType context 32),
      .edit (.signatureType ⟨context, 0⟩ [⟨context, 0⟩] false),
      .edit (.integerConstant ⟨context, 0⟩ 7),
      .edit (.arrayConstant ⟨context, 0⟩ [⟨context, 0⟩, ⟨context, 0⟩]),
      .edit (.structConstant context [⟨context, 1⟩, ⟨context, 0⟩] false),
      .edit (.declare context "f" ⟨context, 1⟩)]
  commands.map fun command => (.reference, .request (.command command))

/-- The function is deleted, a description fails, and another context comes and goes. -/
def deletingRun : List (Engine ReferenceState × Task) :=
  let tasks : List Task :=
    [.request (.command (.edit (.deleteFunction ⟨⟨0, 0⟩, 3⟩))),
      .build missingLocal,
      .request (.command (.createContext "other")),
      .request (.command (.destroyContext ⟨1, 1⟩))]
  tasks.map (Engine.reference, ·)

/-- The struct has a type for its fields, and outlasts the function with all that is inside it. -/
theorem structRun_permanent :
    ∃ context last : Context,
      ((start .standard .start).pursue structRun).1.store.context? ⟨0, 0⟩ = some context ∧
      (((start .standard .start).pursue structRun).1.pursue deletingRun).1.store.context? ⟨0, 0⟩ =
        some last ∧
      (context.value? 3).isSome ∧ last.value? 3 = none ∧
      ∃ type, context.Holds 2 type (.struct [1, 0]) ∧
        context.TypesConstant type (.struct [1, 0]) ∧
        (∀ part, Relation.TransGen context.RefersTo 2 part → ∃ type, context.HoldsData part type) ∧
        last.Holds 2 type (.struct [1, 0]) := by
  have facts : (((start .standard .start).pursue structRun).1.store.context? ⟨0, 0⟩).map
        (fun context => ((context.value? 2).map (·.kind), (context.value? 3).isSome)) =
        some (some (.struct [1, 0]), true) ∧
      ((((start .standard .start).pursue structRun).1.pursue deletingRun).1.store.context?
        ⟨0, 0⟩).map (fun context => context.value? 3) = some none ∧
      ∀ step ∈ deletingRun, step.2.target? ≠ some ⟨0, 0⟩ := by
    decide +kernel
  obtain ⟨earlier, later, spared⟩ := facts
  obtain ⟨context, found, shown⟩ := Option.map_eq_some_iff.mp earlier
  obtain ⟨isStruct, isThere⟩ := Prod.mk.inj shown
  obtain ⟨entry, known, same⟩ := Option.map_eq_some_iff.mp isStruct
  have held : context.Holds 2 entry.type (.struct [1, 0]) := same ▸ .of_value? known
  obtain ⟨typed, inside, permanent⟩ :=
    constants_permanent .standard ReferenceState.start structRun found held rfl
  obtain ⟨last, lives, still⟩ := permanent deletingRun spared
  have gone : last.value? 3 = none := by
    rw [lives] at later
    exact Option.some.inj later
  exact ⟨context, last, found, lives, isThere, gone, entry.type, held, typed, inside, still⟩

end Workspace

end TypedIR
