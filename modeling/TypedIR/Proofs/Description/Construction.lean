import TypedIR.Description.Draft
import TypedIR.Proofs.Ownership.Names
import TypedIR.Proofs.Types.Tree
import TypedIR.Proofs.Workspace.Commands

/-!
Contract: what a construction comes to, composed piece by piece.

Owns:
- the outcome of a construction on a draft, for each way of making one;
- the steps of a construction, each an edit or a convention that a client could have
  asked for, and the invariants of the context that they keep;
- specifications: the exact condition under which a construction succeeds, and what
  holds of its result and of the context then, with one rule for each way of making a
  construction.
-/

namespace TypedIR

/-! ### The context of a draft -/

/-- The invariants of a context whose functions nobody has verified yet. -/
structure Context.Drafted (settings : Settings) (context : Context) : Prop where
  regular : context.Regular settings
  distinct : context.DistinctNames
  unverified : ∀ entry ∈ context.functions, entry.state = .unverified

theorem Context.drafted_empty (settings : Settings) (id : ContextId) (native : NativeHandle)
    (moduleName : String) : (empty id native moduleName).Drafted settings where
  regular := regular_empty settings id native moduleName
  distinct := distinctNames_empty id native moduleName
  unverified := by simp [empty]

/-- Functions changed in place by an edit are unverified. -/
theorem Context.unverified_updateFunction {context : Context} {function : ValueRef}
    {change : FunctionEntry → FunctionEntry}
    (unverified : ∀ entry ∈ context.functions, entry.state = .unverified)
    (edited : ∀ entry, (change entry).state = .unverified) :
    ∀ entry ∈ (context.updateFunction function change).functions, entry.state = .unverified := by
  intro entry member
  obtain ⟨old, oldMember, rfl⟩ := mem_updateFunction.mp member
  split
  · exact edited old
  · exact unverified old oldMember

theorem Change.unverified {settings : Settings} {effect : Effect} {before after : Context}
    (isEdit : effect.IsEdit) (change : Change settings effect before after)
    (unverified : ∀ entry ∈ before.functions, entry.state = .unverified) :
    ∀ entry ∈ after.functions, entry.state = .unverified := by
  cases change with
  | declare name shape free =>
      intro entry member
      rcases Context.mem_withFunction.mp member with old | rfl
      · exact unverified entry old
      · rfl
  | delete found =>
      intro entry member
      obtain ⟨_, _, _, rfl⟩ := Context.mem_withoutFunction.mp member
      rfl
  | block name found => exact Context.unverified_updateFunction unverified fun _ => rfl
  | configure change found frame personality =>
      exact Context.unverified_updateFunction unverified fun _ => rfl
  | append name found typed targets =>
      exact Context.unverified_updateFunction unverified fun _ => rfl
  | record function state => exact absurd rfl (isEdit function)
  | _ => exact unverified

theorem Context.Drafted.changes {settings : Settings} {effect : Effect} {before after : Context}
    (drafted : before.Drafted settings) (isEdit : effect.IsEdit)
    (changes : Changes settings effect before after) : after.Drafted settings := by
  induction changes with
  | refl => exact drafted
  | tail _ change inductionHypothesis =>
      have owned := inductionHypothesis.regular.coherent.owned
      exact ⟨inductionHypothesis.regular.changes (.single change),
        inductionHypothesis.distinct.step owned change,
        change.unverified isEdit inductionHypothesis.unverified⟩

namespace Description

variable {terms : Terms} {context before between after : Context}

/-! ### Steps -/

/-- A change of the draft's context that a client could have asked for. -/
inductive Step (terms : Terms) (before after : Context) : Prop where
  | edit (change : Edit) (answer : Answer)
      (home : (change.operation terms.settings).home = before.id)
      (passed : (change.operation terms.settings).screen = .ok ())
      (done : ((change.operation terms.settings).effect before).1 = .ok (answer, after))
  | convention (function : FunctionId) (code : UInt32) (home : function.context = before.id)
      (done : before.setConvention terms.accepts terms.engine function code = .ok ((), after))

def Steps (terms : Terms) : Context → Context → Prop := Relation.ReflTransGen (Step terms)

theorem Step.changes (step : Step terms before after) :
    ∃ effect : Effect, effect.IsEdit ∧ Changes terms.settings effect before after := by
  cases step with
  | edit change answer home passed done =>
      exact ⟨change.effect, change.effect_isEdit, (Edit.operation_ok home.symm done).2⟩
  | convention function code home done =>
      exact ⟨.plain, fun _ => by simp, (Context.setConvention_ok done).2⟩

namespace Steps

theorem refl : Steps terms before before := Relation.ReflTransGen.refl

theorem single (step : Step terms before after) : Steps terms before after :=
  Relation.ReflTransGen.single step

theorem trans (first : Steps terms before between) (second : Steps terms between after) :
    Steps terms before after :=
  Relation.ReflTransGen.trans first second

theorem id_eq (steps : Steps terms before after) : after.id = before.id := by
  induction steps with
  | refl => rfl
  | tail _ step inductionHypothesis =>
      obtain ⟨_, _, changes⟩ := step.changes
      exact changes.id_eq.trans inductionHypothesis

theorem drafted (steps : Steps terms before after) (drafted : before.Drafted terms.settings) :
    after.Drafted terms.settings := by
  induction steps with
  | refl => exact drafted
  | tail _ step inductionHypothesis =>
      obtain ⟨_, isEdit, changes⟩ := step.changes
      exact inductionHypothesis.changes isEdit changes

theorem regular (steps : Steps terms before after) (regular : before.Regular terms.settings) :
    after.Regular terms.settings := by
  induction steps with
  | refl => exact regular
  | tail _ step inductionHypothesis =>
      obtain ⟨_, _, changes⟩ := step.changes
      exact inductionHypothesis.changes changes

/-- Types keep their trees. -/
theorem tree? (steps : Steps terms before after) (regular : before.Regular terms.settings)
    {type : TypeRef} {tree : TypeTree} (known : before.tree? type = some tree) :
    after.tree? type = some tree := by
  induction steps with
  | refl => exact known
  | tail earlier step inductionHypothesis =>
      obtain ⟨_, _, changes⟩ := step.changes
      exact (Steps.regular earlier regular).tree?_mono changes inductionHypothesis

end Steps

/-! ### Outcomes -/

namespace Construction

variable {α β : Type} {draft : Draft}

/-- The result or fault of a construction, and the draft that it leaves. -/
def outcome (construction : Construction α) (draft : Draft) : Except BuildFault α × Draft :=
  construction draft

theorem outcome_bind (first : Construction α) (next : α → Construction β) :
    (first >>= next).outcome draft =
      match first.outcome draft with
      | (.ok value, between) => (next value).outcome between
      | (.error fault, between) => (.error fault, between) := by
  unfold outcome
  simp only [bind, ExceptT.bind, ExceptT.mk, StateT.bind, ExceptT.bindCont]
  cases first draft with
  | mk result between => cases result <;> rfl

theorem outcome_within (place : Place) (construction : Construction α) :
    (within place construction).outcome draft =
      match construction.outcome draft with
      | (.ok value, after) => (.ok value, after)
      | (.error fault, after) => (.error (fault.within place), after) := by
  unfold outcome within
  simp only [tryCatch, tryCatchThe, MonadExceptOf.tryCatch, ExceptT.tryCatch, ExceptT.mk, bind,
    StateT.bind]
  cases construction draft with
  | mk result after => cases result <;> rfl

theorem outcome_context :
    Construction.context.outcome draft = (.ok draft.context, draft) := rfl

theorem outcome_inspect (query : Context → Except Fault α) :
    (inspect query).outcome draft =
      match query draft.context with
      | .ok value => (.ok value, draft)
      | .error fault => (.error ⟨[], .refused fault⟩, draft) := by
  unfold inspect
  rw [outcome_bind, outcome_context]
  dsimp only
  cases query draft.context <;> rfl

theorem outcome_perform (operation : Operation α) :
    (perform operation).outcome draft =
      match operation.screen, operation.effect draft.context with
      | .error fault, _ => (.error ⟨[], .refused fault⟩, draft)
      | .ok (), (.error fault, events) =>
          (.error ⟨[], .refused fault⟩, { draft with events := draft.events ++ events })
      | .ok (), (.ok (value, changed), events) => (.ok value, ⟨changed, draft.events ++ events⟩) := by
  unfold perform
  cases operation.screen with
  | error refused => rfl
  | ok passed =>
      cases done : operation.effect draft.context with
      | mk result reported =>
          cases result with
          | error refused =>
              simp only [outcome_bind, outcome_context, done]
              rfl
          | ok result =>
              simp only [outcome_bind, outcome_context, done]
              rfl

theorem perform_cases (operation : Operation α) (context : Context) (events : List Event) :
    (∃ value changed later, operation.screen = .ok () ∧
      (operation.effect context).1 = .ok (value, changed) ∧
      (perform operation).outcome ⟨context, events⟩ = (.ok value, ⟨changed, later⟩)) ∨
    ∃ refused fault later,
      (operation.screen = .error refused ∨ (operation.effect context).1 = .error refused) ∧
      (perform operation).outcome ⟨context, events⟩ = (.error fault, ⟨context, later⟩) := by
  rw [outcome_perform]
  cases operation.screen with
  | error refused => exact .inr ⟨refused, _, _, .inl rfl, rfl⟩
  | ok passed =>
      cases operation.effect context with
      | mk result reported =>
          cases result with
          | error refused => exact .inr ⟨refused, _, _, .inr rfl, rfl⟩
          | ok result => exact .inl ⟨result.1, result.2, _, rfl, rfl, rfl⟩

/-! ### Specifications -/

/-- The construction succeeds exactly if the condition holds, its result and the context after it
are then as ensured, and whether it succeeds or not it takes steps only. -/
def Meets (terms : Terms) (construction : Construction α) (context : Context) (possible : Prop)
    (ensures : α → Context → Prop) : Prop :=
  ∀ events,
    (∃ value after later, construction.outcome ⟨context, events⟩ = (.ok value, ⟨after, later⟩) ∧
      Steps terms context after ∧ possible ∧ ensures value after) ∨
    ∃ fault after later, construction.outcome ⟨context, events⟩ = (.error fault, ⟨after, later⟩) ∧
      Steps terms context after ∧ ¬ possible

variable {terms : Terms} {context : Context} {possible : Prop} {ensures : α → Context → Prop}

theorem meets_pure {value : α} (holds : possible) (ensured : ensures value context) :
    Meets terms (pure value) context possible ensures :=
  fun events => .inl ⟨value, context, events, rfl, .refl, holds, ensured⟩

theorem meets_fail {cause : Cause} (impossible : ¬ possible) :
    Meets terms (fail cause) context possible ensures :=
  fun events => .inr ⟨⟨[], cause⟩, context, events, rfl, .refl, impossible⟩

theorem meets_bind_fail {cause : Cause} {next : β → Construction α} (impossible : ¬ possible) :
    Meets terms (fail cause >>= next) context possible ensures :=
  fun events => .inr ⟨⟨[], cause⟩, context, events, rfl, .refl, impossible⟩

theorem meets_emit {events : List Event} {ensures : Unit → Context → Prop} (holds : possible)
    (ensured : ensures () context) : Meets terms (emit events) context possible ensures :=
  fun before => .inl ⟨(), context, before ++ events, rfl, .refl, holds, ensured⟩

theorem Meets.within {construction : Construction α} (place : Place)
    (meets : Meets terms construction context possible ensures) :
    Meets terms (within place construction) context possible ensures := by
  intro events
  rw [outcome_within]
  rcases meets events with ⟨value, after, later, came, rest⟩ | ⟨fault, after, later, came, rest⟩
  · exact .inl ⟨value, after, later, by rw [came], rest⟩
  · exact .inr ⟨fault.within place, after, later, by rw [came], rest⟩

/-- The first part of a construction has to be possible if the whole is. The rest is judged after
the steps of the first part. -/
theorem Meets.bind {first : Construction α} {next : α → Construction β} {needed : Prop}
    {mid : α → Context → Prop} {ensures : β → Context → Prop}
    (meets : Meets terms first context needed mid) (implied : possible → needed)
    (rest : ∀ value between, Steps terms context between → needed → mid value between →
      Meets terms (next value) between possible ensures) :
    Meets terms (first >>= next) context possible ensures := by
  intro events
  rw [outcome_bind]
  rcases meets events with
    ⟨value, between, later, came, steps, holds, reached⟩ | ⟨fault, after, later, came, steps, failed⟩
  · rw [came]
    rcases rest value between steps holds reached later with
      ⟨result, after, last, done, more, ensured⟩ | ⟨fault, after, last, done, more, failed⟩
    · exact .inl ⟨result, after, last, done, steps.trans more, ensured⟩
    · exact .inr ⟨fault, after, last, done, steps.trans more, failed⟩
  · rw [came]
    exact .inr ⟨fault, after, later, rfl, steps, fun holds => failed (implied holds)⟩

/-- A look at the context changes nothing. -/
theorem meets_bind_context {next : Context → Construction α}
    (rest : Meets terms (next context) context possible ensures) :
    Meets terms (Construction.context >>= next) context possible ensures := by
  intro events
  rw [outcome_bind]
  exact rest events

theorem meets_bind_inspect {query : Context → Except Fault β} {next : β → Construction α} {value : β}
    (answered : query context = .ok value)
    (rest : Meets terms (next value) context possible ensures) :
    Meets terms (inspect query >>= next) context possible ensures := by
  intro events
  rw [outcome_bind, outcome_inspect, answered]
  exact rest events

/-- An operation that takes a step of the draft's own context when it succeeds. -/
theorem meets_operation {operation : Operation α}
    (step : ∀ value after, operation.screen = .ok () →
      (operation.effect context).1 = .ok (value, after) → Step terms context after)
    (passes : possible → operation.screen = .ok ())
    (decides : ∀ value after, operation.screen = .ok () →
      (operation.effect context).1 = .ok (value, after) → possible ∧ ensures value after)
    (succeeds : possible → ∃ value after, (operation.effect context).1 = .ok (value, after)) :
    Meets terms (perform operation) context possible ensures := by
  intro events
  rcases perform_cases operation context events with
    ⟨value, changed, later, passed, done, came⟩ | ⟨refused, fault, later, cause, came⟩
  · obtain ⟨holds, ensured⟩ := decides value changed passed done
    exact .inl ⟨value, changed, later, came, .single (step value changed passed done), holds,
      ensured⟩
  · refine .inr ⟨fault, context, later, came, .refl, fun holds => ?_⟩
    rcases cause with screened | failed
    · cases screened.symm.trans (passes holds)
    · obtain ⟨value, after, done⟩ := succeeds holds
      cases failed.symm.trans done

theorem meets_perform {operation : Operation α} {view : α → Answer} (edit : Edit)
    (same : edit.operation terms.settings = operation.map view)
    (home : operation.home = context.id) (passes : possible → operation.screen = .ok ())
    (decides : ∀ value after, operation.screen = .ok () →
      (operation.effect context).1 = .ok (value, after) → possible ∧ ensures value after)
    (succeeds : possible → ∃ value after, (operation.effect context).1 = .ok (value, after)) :
    Meets terms (perform operation) context possible ensures := by
  refine meets_operation (fun value after passed done => ?_) passes decides succeeds
  refine .edit edit (view value) ?_ ?_ ?_
  · rw [same]
    exact home
  · rw [same]
    exact passed
  · rw [same]
    exact Operation.map_eq_ok.mpr ⟨value, done, rfl⟩

section Apply

variable {home : ContextId} {apply : Context → Except Fault (α × Context)}
  {report : Context → α → List Event} {view : α → Answer} (edit : Edit)

/-- An edit that is refused on a ground ahead of its own, or by what it applies. -/
theorem meets_guarded {screen : Except Fault Unit}
    (same : edit.operation terms.settings =
      ((Operation.reported home apply report).guarded screen).map view)
    (sameId : home = context.id) (passes : possible → screen = .ok ())
    (decides : ∀ value after, apply context = .ok (value, after) → possible ∧ ensures value after)
    (succeeds : possible → ∃ result, apply context = .ok result) :
    Meets terms (perform ((Operation.reported home apply report).guarded screen)) context possible
      ensures := by
  have effect : (((Operation.reported home apply report).guarded screen).effect context).1 =
      apply context := by
    show ((Operation.reported home apply report).effect context).1 = _
    exact Operation.reported_effect
  apply meets_perform edit same sameId
  · exact fun holds => Operation.guarded_passes (passes holds) rfl
  · intro value after _ done
    exact decides value after (effect.symm.trans done)
  · intro holds
    obtain ⟨⟨value, after⟩, done⟩ := succeeds holds
    exact ⟨value, after, effect.trans done⟩

theorem meets_reported
    (same : edit.operation terms.settings = (Operation.reported home apply report).map view)
    (sameId : home = context.id)
    (decides : ∀ value after, apply context = .ok (value, after) → possible ∧ ensures value after)
    (succeeds : possible → ∃ result, apply context = .ok result) :
    Meets terms (perform (Operation.reported home apply report)) context possible ensures := by
  have effect : ((Operation.reported home apply report).effect context).1 = apply context :=
    Operation.reported_effect
  apply meets_perform edit same sameId fun _ => rfl
  · intro value after _ done
    exact decides value after (effect.symm.trans done)
  · intro holds
    obtain ⟨⟨value, after⟩, done⟩ := succeeds holds
    exact ⟨value, after, effect.trans done⟩

end Apply

/-- The same condition said otherwise, and less of the result. -/
theorem Meets.weaken {construction : Construction α} {condition : Prop}
    {needs : α → Context → Prop} (meets : Meets terms construction context condition needs)
    (same : possible ↔ condition)
    (less : ∀ value after, Steps terms context after → condition → needs value after →
      ensures value after) : Meets terms construction context possible ensures := by
  intro events
  rcases meets events with
    ⟨value, after, later, came, steps, holds, ensured⟩ | ⟨fault, after, later, came, steps, failed⟩
  · exact .inl ⟨value, after, later, came, steps, same.mpr holds,
      less value after steps holds ensured⟩
  · exact .inr ⟨fault, after, later, came, steps, fun holds => failed (same.mp holds)⟩

end Construction

end Description

end TypedIR
