import TypedIR.Proofs.Workspace.Balance
import TypedIR.Proofs.Workspace.Isolation

/-!
Contract: builds that fail.

Owns:
- the look-up of contexts and the identities given out, exactly, after creation and destruction;
- stores that cannot be told from an earlier one by anything that was there before;
- what a build comes to: one context more and the others as they were, or everything as it was.

The slot of a failed build moves on to its next generation, so nothing that the attempt gave out
can come to life again.
-/

namespace TypedIR

variable {σ : Type} {engine : Engine σ} {workspace : Workspace σ}

namespace Store

variable {store before after : Store} {id other : ContextId} {context : Context} {handle : Handle}
  {native : NativeHandle} {name : String}

/-! ### Creation and destruction -/

theorem Sound.context?_of_create (sound : store.Sound) (found : store.context? id = some context) :
    (store.create native name).2.context? id = some context := by
  obtain ⟨slot, lookup, generation, held⟩ := context?_eq_some.mp found
  refine context?_eq_some.mpr ⟨slot, ?_, generation, held⟩
  cases free : store.free with
  | nil =>
      have inside : id.index < store.slots.size := (Array.getElem?_eq_some_iff.mp lookup).1
      rw [create_of_nil free]
      show (store.slots.push _)[id.index]? = _
      rw [Array.getElem?_push, if_neg (Nat.ne_of_lt inside), lookup]
  | cons reused rest =>
      have listed : reused ∈ store.free := free ▸ List.mem_cons_self
      obtain ⟨generation, vacant⟩ := sound.vacant reused listed
      have apart : reused ≠ id.index := by
        rintro rfl
        exact sound.not_free found listed
      rw [create_of_cons free vacant]
      show (store.slots.modify reused _)[id.index]? = _
      rw [Array.getElem?_modify, if_neg apart, lookup]

/-- Creation adds one context and leaves the others as they are. -/
theorem Sound.context?_after_create (sound : store.Sound) :
    (store.create native name).2.context? other =
      if other = (store.create native name).1
      then some (.empty (store.create native name).1 native name) else store.context? other := by
  by_cases same : other = (store.create native name).1
  · rw [if_pos same, same]
    exact sound.context?_created native name
  · rw [if_neg same]
    refine Option.ext fun context => ⟨fun found => ?_, sound.context?_of_create⟩
    refine (context?_create found).resolve_left fun made => ?_
    exact same (made.1.symm.trans fst_create.symm)

/-- Destruction removes one context and leaves the others as they are. -/
theorem context?_after_destroy (done : store.destroy id = .ok (context, after)) :
    after.context? other = if other = id then none else store.context? other := by
  by_cases same : other = id
  · rw [if_pos same, same]
    exact context?_of_destroyed done
  · rw [if_neg same]
    obtain ⟨gone, equal⟩ := destroy_done done
    refine Option.ext fun kept => ⟨(destroy_ok done).2 other kept, fun found => ?_⟩
    have apart := index_ne gone found (Ne.symm same)
    obtain ⟨slot, lookup, generation, held⟩ := context?_eq_some.mp found
    refine context?_eq_some.mpr ⟨slot, ?_, generation, held⟩
    rw [equal]
    by_cases more : id.generation < maxGeneration
    · rw [if_pos more, Array.getElem?_setIfInBounds, if_neg apart, lookup]
    · rw [if_neg more, Array.getElem?_setIfInBounds, if_neg apart, lookup]

theorem Sound.hasIssued_after_create (sound : store.Sound) :
    (store.create native name).2.HasIssued other ↔
      other = (store.create native name).1 ∨ store.HasIssued other := by
  obtain ⟨next, counted⟩ := @Sound.create_issues _ native name sound
  unfold HasIssued
  rw [counted]
  by_cases here : other.index = (store.create native name).1.index
  · rw [if_pos here, Nat.lt_succ_iff_lt_or_eq, or_comm, here, ← next]
    refine or_congr_left ⟨fun same => ?_, congrArg ContextId.generation⟩
    exact congr (congrArg ContextId.mk here) same
  · rw [if_neg here, or_iff_right]
    exact fun same => here (congrArg ContextId.index same)

/-! ### Stores alike -/

/-- Everything that there was is there as it was, and there is nothing else. -/
structure Restores (before after : Store) : Prop where
  settings : after.settings = before.settings
  contexts : ∀ id, after.context? id = before.context? id
  issued : ∀ id, before.HasIssued id → after.HasIssued id

namespace Restores

variable (restores : Restores before after)

include restores

theorem live : after.Live handle ↔ before.Live handle := by
  unfold Live
  rw [restores.contexts]

theorem dead (dead : before.Dead handle) : after.Dead handle where
  issued := restores.issued _ dead.issued
  released := by
    rw [restores.contexts]
    exact dead.released

theorem answer (query : Query) : query.answer after = query.answer before := by
  unfold Query.answer read resolve
  rw [restores.contexts]

end Restores

end Store

namespace Workspace

open Description

variable {description : Module}

/-! ### A build and the workspace before it -/

/-- All that a build has changed before it ends is one context, under an identity that was not given
out before. -/
structure Attempts (before during : Store) (id : ContextId) : Prop where
  sound : during.Sound
  settings : during.settings = before.settings
  fresh : ¬ before.HasIssued id
  absent : before.context? id = none
  present : ∃ context, during.context? id = some context
  contexts : ∀ other, other ≠ id → during.context? other = before.context? other
  issued : ∀ other, during.HasIssued other ↔ other = id ∨ before.HasIssued other

theorem constructed_attempts (sound : workspace.store.Sound) (engine : Engine σ)
    (description : Module) :
    Attempts workspace.store (constructed engine description workspace).workspace.store
      (openedId engine description workspace) := by
  have found : (opened engine description workspace).store.context?
      (openedId engine description workspace) = some (.empty (openedId engine description workspace)
        (engine.create workspace.native).1 description.name) := sound.context?_created _ _
  obtain ⟨left, stored⟩ : ∃ left, (constructed engine description workspace).workspace.store =
      (opened engine description workspace).store.put
        (openedId engine description workspace).index left := by
    unfold constructed construct
    rw [found]
    exact ⟨_, rfl⟩
  have fresh : ¬ workspace.store.HasIssued (openedId engine description workspace) :=
    sound.create_fresh _ _
  have absent : workspace.store.context? (openedId engine description workspace) = none :=
    Option.eq_none_iff_forall_ne_some.mpr fun _ live => fresh (sound.hasIssued_of_live live)
  rw [stored]
  refine ⟨Store.Sound.put sound.create found, Store.settings_create, fresh, absent,
    ⟨left, (Store.context?_put found).trans (if_pos rfl)⟩, fun other apart => ?_, fun other => ?_⟩
  · exact (Store.context?_put found).trans ((if_neg apart).trans
      (sound.context?_after_create.trans (if_neg apart)))
  · unfold Store.HasIssued
    rw [Store.issuedBy_put]
    exact sound.hasIssued_after_create

namespace Attempts

variable {before during after : Store} {id : ContextId} {context : Context} {handle : Handle}
  (attempts : Attempts before during id)

include attempts

/-- Once the context of the attempt is destroyed, everything is as it was. -/
theorem restores (done : during.destroy id = .ok (context, after)) : before.Restores after where
  settings := (Store.destroy_ok done).1.trans attempts.settings
  contexts := by
    intro other
    rw [Store.context?_after_destroy done]
    by_cases same : other = id
    · rw [if_pos same, same, attempts.absent]
    · rw [if_neg same, attempts.contexts other same]
  issued := by
    intro other issued
    unfold Store.HasIssued
    rw [attempts.sound.issuedBy_destroy done]
    exact (attempts.issued other).mpr (.inr issued)

/-- Whatever the attempt gave out is dead once its context is destroyed. -/
theorem dead_of_minted (done : during.destroy id = .ok (context, after))
    (given : during.GivenOut handle) (minted : ¬ before.GivenOut handle) : after.Dead handle := by
  by_cases own : handle.tag = id
  · exact Store.dead_of_destroyed attempts.sound done own
  · refine absurd ⟨?_, ?_⟩ minted
    · exact ((attempts.issued _).mp given.issued).resolve_left own
    · rw [← attempts.contexts _ own]
      exact given.entry

end Attempts

/-! ### What a build comes to -/

/-- Nothing that a client can find out tells the workspace from the one before the build. The engine
has given out one native handle and has got it back. -/
structure LeavesNoTrace (engine : Engine σ) (description : Module) (workspace : Workspace σ) :
    Prop where
  settings : (build engine description workspace).workspace.store.settings =
    workspace.store.settings
  contexts : ∀ id, (build engine description workspace).workspace.store.context? id =
    workspace.store.context? id
  answers : ∀ query : Query, query.answer (build engine description workspace).workspace.store =
    query.answer workspace.store
  live : ∀ handle, (build engine description workspace).workspace.store.Live handle ↔
    workspace.store.Live handle
  dead : ∀ handle, workspace.store.Dead handle →
    (build engine description workspace).workspace.store.Dead handle
  /-- Whatever was given out by the time of the fault, and not before the build. -/
  minted : ∀ handle, (constructed engine description workspace).workspace.store.GivenOut handle →
    ¬ workspace.store.GivenOut handle →
      (build engine description workspace).workspace.store.Dead handle
  created : createdIn (build engine description workspace).events =
    [(engine.create workspace.native).1]
  disposed : disposedIn (build engine description workspace).events =
    [(engine.create workspace.native).1]
  native : (build engine description workspace).workspace.native =
    (engine.dispose (engine.create workspace.native).1 (engine.create workspace.native).2).1

/-- One context is new, under an identity that was not given out before, and the others are as they
were. -/
structure AddsOne (engine : Engine σ) (description : Module) (workspace : Workspace σ)
    (id : ContextId) : Prop where
  settings : (build engine description workspace).workspace.store.settings =
    workspace.store.settings
  fresh : ¬ workspace.store.HasIssued id
  present : ∃ context,
    (build engine description workspace).workspace.store.context? id = some context
  contexts : ∀ other, other ≠ id →
    (build engine description workspace).workspace.store.context? other =
      workspace.store.context? other

theorem build_comes_to (accountable : workspace.store.Accountable) (engine : Engine σ)
    (description : Module) :
    (∃ fault, (build engine description workspace).result = .ok (.error fault) ∧
        LeavesNoTrace engine description workspace) ∨
      ∃ id, (build engine description workspace).result = .ok (.ok id) ∧
        AddsOne engine description workspace id := by
  have attempts := constructed_attempts accountable.sound engine description
  obtain ⟨_, _, result, done⟩ := constructed_keeps accountable engine description
  cases result with
  | ok _ =>
      have came := build_of_constructed done
      have same : (build engine description workspace).workspace =
          (constructed engine description workspace).workspace := congrArg Outcome.workspace came
      refine .inr ⟨_, congrArg Outcome.result came, ?_, attempts.fresh, ?_, ?_⟩ <;> rw [same]
      · exact attempts.settings
      · exact attempts.present
      · exact attempts.contexts
  | error fault =>
      have retracts := retracts_of_fault accountable done
      obtain ⟨context, _, destroyed⟩ := retracts.destroyed
      have restores := attempts.restores destroyed
      refine .inl ⟨fault, retracts.result, restores.settings, restores.contexts, restores.answer,
        fun _ => restores.live, fun _ => restores.dead, fun _ => attempts.dead_of_minted destroyed,
        retracts.created, retracts.disposed, retracts.native⟩

/-- The reference engine holds the same native handles as before. -/
theorem LeavesNoTrace.live_natives {workspace : Workspace ReferenceState}
    (traceless : LeavesNoTrace Engine.reference description workspace) :
    (build Engine.reference description workspace).workspace.native.live =
      workspace.native.live := by
  have native := traceless.native.trans workspace.native.dispose_create
  rw [native]

/-- Whatever was done before, with whatever engines, a build that fails leaves no trace, and one
that succeeds adds one context. -/
theorem failed_build_traceless (settings : Settings) :
    (∀ {σ : Type} (native : σ) (run : List (Engine σ × Task)) (engine : Engine σ)
        (description : Module),
      let workspace := ((start settings native).pursue run).1
      (∃ fault, (build engine description workspace).result = .ok (.error fault) ∧
          LeavesNoTrace engine description workspace) ∨
        ∃ id, (build engine description workspace).result = .ok (.ok id) ∧
          AddsOne engine description workspace id) ∧
      ∀ (native : ReferenceState) (run : List (Engine ReferenceState × Task))
        (description : Module),
      let workspace := ((start settings native).pursue run).1
      (∃ fault, (build Engine.reference description workspace).result = .ok (.error fault) ∧
          (build Engine.reference description workspace).workspace.native.live =
            workspace.native.live) ∨
        ∃ id, (build Engine.reference description workspace).result = .ok (.ok id) := by
  have all := fun {σ : Type} (native : σ) (run : List (Engine σ × Task)) =>
    build_comes_to (accountable_pursue (accountable_start settings native) run)
  refine ⟨all, fun native run description => ?_⟩
  rcases all native run Engine.reference description with ⟨fault, done, traceless⟩ | ⟨id, done, _⟩
  · exact .inl ⟨fault, done, traceless.live_natives⟩
  · exact .inr ⟨id, done⟩

/-- The first context of the run is destroyed by now. Its slot is taken by a build that fails, or by
one that succeeds. -/
theorem tradingRun_traceless :
    let workspace := ((start .standard .start).pursue (tradingRun.take 4)).1
    LeavesNoTrace Engine.reference missingLocal workspace ∧
      AddsOne Engine.reference maxModule workspace ⟨0, 1⟩ := by
  intro workspace
  have results : (build Engine.reference missingLocal workspace).result =
        .ok (.error ⟨[.function "f", .block "entry"], .unknownLocal "missing"⟩) ∧
      (build Engine.reference maxModule workspace).result = .ok (.ok ⟨0, 1⟩) := by
    decide +kernel
  obtain ⟨refused, built⟩ := results
  have all := (failed_build_traceless .standard).1 ReferenceState.start (tradingRun.take 4)
    Engine.reference
  constructor
  · rcases all missingLocal with ⟨_, _, traceless⟩ | ⟨id, done, _⟩
    · exact traceless
    · cases Except.ok.inj (refused.symm.trans done)
  · rcases all maxModule with ⟨fault, done, _⟩ | ⟨id, done, added⟩
    · cases Except.ok.inj (built.symm.trans done)
    · obtain rfl := Except.ok.inj (Except.ok.inj (built.symm.trans done))
      exact added

end Workspace

end TypedIR
