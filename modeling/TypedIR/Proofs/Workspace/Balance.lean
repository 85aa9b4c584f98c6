import TypedIR.Proofs.Workspace.Deals

/-!
Contract: native handles in the course of a run, up to its end.

Owns:
- the balance of a run: what was given out is backing a live context or was taken back;
- when a step takes a handle back, and that the end takes back the rest;
- the handles that the reference engine holds.
-/

namespace TypedIR

variable {σ : Type} {engine : Engine σ}

/-- The native handles of the live contexts, in the order of their slots. -/
def Store.natives (store : Store) : List NativeHandle := store.contexts.map Context.native

theorem Store.natives_eq (store : Store) : store.natives = store.accounts.map Prod.snd := by
  unfold natives accounts
  rw [List.map_map]
  rfl

theorem Store.Accountable.mem_natives {store : Store} {id : ContextId} {context : Context}
    (accountable : store.Accountable) (found : store.context? id = some context) :
    context.native ∈ store.natives := by
  rw [store.natives_eq]
  exact List.mem_map_of_mem (accountable.mem_accounts.mpr ⟨context, found, rfl⟩)

/-! ### The balance of a run -/

/-- Handles given out in a stretch of events, together with those that were backing contexts before,
are backing contexts now or were taken back. -/
def Balances (before after : Store) (events : List Event) : Prop :=
  (createdIn events ++ before.natives).Perm (after.natives ++ disposedIn events)

theorem Balances.append {before between after : Store} {early late : List Event}
    (first : Balances before between early) (second : Balances between after late) :
    Balances before after (early ++ late) := by
  unfold Balances at *
  rw [List.perm_iff_count] at *
  intro handle
  have one := first handle
  have two := second handle
  simp only [createdIn_append, disposedIn_append, List.count_append] at *
  omega

theorem Deal.balances {target : Option ContextId} {before after : Workspace σ}
    {events : List Event} (deal : Deal engine target before after events) :
    Balances before.store after.store events := by
  unfold Balances
  rw [Store.natives_eq, Store.natives_eq]
  cases deal with
  | idle accounts native silent =>
      rw [silent.created, silent.disposed, accounts, List.append_nil]
      rfl
  | created id accounts native created disposed =>
      rw [created, disposed, List.append_nil]
      exact (accounts.map Prod.snd).symm
  | destroyed id handle aimed accounts native created disposed =>
      rw [created, disposed]
      exact (accounts.map Prod.snd).trans (List.perm_append_singleton _ _).symm
  | passed accounts native created disposed =>
      rw [created, disposed]
      exact ((accounts.symm.map Prod.snd).cons _).trans (List.perm_append_singleton _ _).symm

theorem Workspace.pursue_balances {workspace : Workspace σ}
    (accountable : workspace.store.Accountable) (run : List (Engine σ × Task)) :
    Balances workspace.store (workspace.pursue run).1.store (workspace.pursue run).2 := by
  induction run generalizing workspace with
  | nil => exact List.Perm.of_eq (List.append_nil workspace.store.natives).symm
  | cons step rest inductionHypothesis =>
      have dealt := step.2.dealt step.1 accountable
      exact dealt.deal.balances.append (inductionHypothesis dealt.accountable)

/-! ### Steps -/

/-- The step reports the calls that the engine received, no live context changes its native handle,
and a handle is taken back exactly if the context that it was backing is destroyed, or if it was
given out in the same step, whose context is gone. -/
structure Settles (engine : Engine σ) (before after : Workspace σ) (events : List Event) :
    Prop where
  served : engine.Serves before.native events after.native
  kept : ∀ id context later, before.store.context? id = some context →
    after.store.context? id = some later → later.native = context.native
  disposed : ∀ handle, handle ∈ disposedIn events ↔
    (∃ id context, before.store.context? id = some context ∧ context.native = handle ∧
        after.store.context? id = none) ∨
      handle ∈ createdIn events ∧ handle ∉ after.store.natives

section Settling

variable {target : Option ContextId} {before after : Workspace σ} {events : List Event}

/-- If no account is closed, what is taken back was given out in the same step. -/
theorem Dealt.settles_of_subset (dealt : Dealt engine target before after events)
    (accountable : before.store.Accountable)
    (stays : before.store.accounts ⊆ after.store.accounts)
    (disposed : ∀ handle, handle ∈ disposedIn events ↔
      handle ∈ createdIn events ∧ handle ∉ after.store.natives) :
    Settles engine before after events := by
  have alive : ∀ {id context}, before.store.context? id = some context →
      ∃ later, after.store.context? id = some later ∧ later.native = context.native :=
    fun found => dealt.accountable.mem_accounts.mp
      (stays (accountable.mem_accounts.mpr ⟨_, found, rfl⟩))
  refine ⟨dealt.served, fun id context later found lives => ?_, fun handle => ?_⟩
  · obtain ⟨other, same, native⟩ := alive found
    rwa [Option.some.inj (lives.symm.trans same)]
  · rw [disposed handle, or_iff_right]
    rintro ⟨id, context, found, _, gone⟩
    obtain ⟨later, lives, _⟩ := alive found
    cases gone.symm.trans lives

/-- If all native handles are different and those given out are new, a step takes back what it
should. -/
theorem Dealt.settles (dealt : Dealt engine target before after events)
    (accountable : before.store.Accountable) (distinct : before.store.natives.Nodup)
    (fresh : ∀ handle ∈ createdIn events, handle ∉ before.store.natives) :
    Settles engine before after events := by
  cases dealt.deal with
  | idle accounts native silent =>
      refine dealt.settles_of_subset accountable
        (fun _ member => accounts ▸ member) fun handle => ?_
      simp [silent.created, silent.disposed]
  | created id accounts native created disposed =>
      refine dealt.settles_of_subset accountable
        (fun _ member => accounts.mem_iff.mpr (List.mem_cons_of_mem _ member)) fun handle => ?_
      have backs : (engine.create before.native).1 ∈ after.store.natives := by
        rw [Store.natives_eq]
        exact List.mem_map_of_mem (accounts.mem_iff.mpr List.mem_cons_self)
      rw [created, disposed, List.mem_singleton]
      refine iff_of_false List.not_mem_nil ?_
      rintro ⟨rfl, absent⟩
      exact absent backs
  | passed accounts native created disposed =>
      refine dealt.settles_of_subset accountable
        (fun _ member => accounts.mem_iff.mpr member) fun handle => ?_
      rw [disposed, created]
      refine (and_iff_left_of_imp fun given => ?_).symm
      have absent := fresh handle (created ▸ given)
      rwa [Store.natives_eq, (accounts.map Prod.snd).mem_iff, ← Store.natives_eq]
  | destroyed id handle aimed accounts native created disposed =>
      have back : ∀ {id context}, after.store.context? id = some context →
          ∃ earlier, before.store.context? id = some earlier ∧ earlier.native = context.native :=
        fun lives => accountable.mem_accounts.mp (accounts.mem_iff.mpr
          (List.mem_cons_of_mem _ (dealt.accountable.mem_accounts.mpr ⟨_, lives, rfl⟩)))
      refine ⟨dealt.served, fun other context later found lives => ?_, fun taken => ?_⟩
      · obtain ⟨earlier, same, sameNative⟩ := back lives
        rw [← sameNative, Option.some.inj (same.symm.trans found)]
      · have natives : before.store.natives.Perm (handle :: after.store.natives) := by
          rw [Store.natives_eq, Store.natives_eq]
          exact accounts.map Prod.snd
        rw [disposed, created, List.mem_singleton, or_iff_left fun given => by cases given.1]
        constructor
        · rintro rfl
          obtain ⟨context, found, backs⟩ :=
            accountable.mem_accounts.mp (accounts.mem_iff.mpr List.mem_cons_self)
          refine ⟨id, context, found, backs, ?_⟩
          cases lives : after.store.context? id with
          | none => rfl
          | some later =>
              -- Otherwise the handle would back a context of the same identity, and another one.
              obtain ⟨earlier, same, sameNative⟩ := back lives
              rw [Option.some.inj (same.symm.trans found), backs] at sameNative
              have once := (List.nodup_cons.mp (natives.nodup_iff.mp distinct)).1
              exact absurd (sameNative ▸ dealt.accountable.mem_natives lives) once
        · rintro ⟨other, context, found, rfl, gone⟩
          have account := accounts.mem_iff.mp (accountable.mem_accounts.mpr ⟨context, found, rfl⟩)
          rcases List.mem_cons.mp account with same | member
          · exact congrArg Prod.snd same
          · obtain ⟨later, lives, _⟩ := dealt.accountable.mem_accounts.mp member
            cases gone.symm.trans lives

end Settling

/-! ### The end of a run -/

/-- Disposal of the native handles of contexts, one after the other. -/
def Engine.takeBack (engine : Engine σ) : List Context → σ → σ × List Event
  | [], native => (native, [])
  | context :: rest, native =>
      let taken := engine.dispose context.native native
      let later := engine.takeBack rest taken.1
      (later.1, .engine (.dispose context.native) :: taken.2.map .log ++ later.2)

/-- The events that have come about before stay in front. -/
theorem Engine.foldl_takeBack (engine : Engine σ) (contexts : List Context) (native : σ)
    (events : List Event) :
    contexts.foldl (fun (native, events) context =>
        let (native, records) := engine.dispose context.native native
        (native, events ++ .engine (.dispose context.native) :: records.map .log))
        (native, events) =
      ((engine.takeBack contexts native).1, events ++ (engine.takeBack contexts native).2) := by
  induction contexts generalizing native events with
  | nil => exact Prod.ext rfl (List.append_nil events).symm
  | cons context rest inductionHypothesis =>
      rw [List.foldl_cons]
      dsimp only
      rw [inductionHypothesis, List.append_assoc]
      rfl

theorem Engine.takeBack_settles (engine : Engine σ) (contexts : List Context) (native : σ) :
    disposedIn (engine.takeBack contexts native).2 = contexts.map Context.native ∧
      createdIn (engine.takeBack contexts native).2 = [] ∧
      engine.Serves native (engine.takeBack contexts native).2
        (engine.takeBack contexts native).1 := by
  induction contexts generalizing native with
  | nil => exact ⟨rfl, rfl, .done native⟩
  | cons context rest inductionHypothesis =>
      have logged := Silent.records (engine.dispose context.native native).2
      obtain ⟨disposed, created, served⟩ :=
        inductionHypothesis (engine.dispose context.native native).1
      refine ⟨?_, ?_, .dispose context.native ((Engine.Serves.of_silent logged).append served)⟩
      · show context.native :: disposedIn (List.map Event.log _ ++ _) = _
        rw [disposedIn_append, logged.disposed, disposed]
        rfl
      · show createdIn (List.map Event.log _ ++ _) = []
        rw [createdIn_append, logged.created, created]
        rfl

namespace Action

/-- At the end, the handles of all contexts that are still there are taken back, in the order of
their slots, and none is given out. -/
theorem close_settles (engine : Engine σ) (workspace : Workspace σ) :
    disposedIn (close engine workspace).events = workspace.store.natives ∧
      createdIn (close engine workspace).events = [] ∧
      engine.Serves workspace.native (close engine workspace).events
        (close engine workspace).workspace.native := by
  unfold close
  simp only [engine.foldl_takeBack, List.nil_append]
  exact engine.takeBack_settles workspace.store.contexts workspace.native

theorem close_empties (engine : Engine σ) (workspace : Workspace σ) :
    (close engine workspace).workspace.store.contexts = [] := by
  refine List.filterMap_eq_nil_iff.mpr fun slot member => ?_
  have emptied : (close engine workspace).workspace.store.slots =
      workspace.store.slots.map fun slot => { slot with context := none } := rfl
  rw [emptied, Array.toList_map] at member
  obtain ⟨old, _, rfl⟩ := List.mem_map.mp member
  rfl

end Action

/-! ### The reference engine -/

namespace ReferenceState

variable {state : ReferenceState} {handle : NativeHandle}

/-- The engine holds exactly the handles, which are pairwise different, and has given out no greater
number than the last one. -/
structure Tallies (state : ReferenceState) (handles : List NativeHandle) : Prop where
  live : state.live.Perm handles
  distinct : state.live.Nodup
  issued : ∀ handle ∈ state.live, handle ≤ state.issued

theorem dispose_of_mem (held : handle ∈ state.live) :
    (state.dispose handle).1 = { state with live := state.live.erase handle } := by
  rw [dispose, if_pos held]

/-- A handle that is taken back right away leaves its number behind. -/
theorem dispose_create (state : ReferenceState) :
    (state.create.2.dispose state.create.1).1 = { state with issued := state.issued + 1 } := by
  rw [dispose_of_mem List.mem_cons_self]
  exact congrArg (ReferenceState.mk _) (List.erase_cons_head _ _)

end ReferenceState

section Tallies

variable {target : Option ContextId} {before after : Workspace ReferenceState}
  {events : List Event}

theorem Deal.tallies (deal : Deal .reference target before after events)
    (tallies : before.native.Tallies before.store.natives) :
    after.native.Tallies after.store.natives := by
  obtain ⟨live, distinct, issued⟩ := tallies
  rw [Store.natives_eq] at live ⊢
  cases deal with
  | idle accounts native silent =>
      rw [native, accounts]
      exact ⟨live, distinct, issued⟩
  | created id accounts native created disposed =>
      replace native : after.native = before.native.create.2 := native
      rw [native]
      refine ⟨(live.cons _).trans (accounts.map Prod.snd).symm,
        List.nodup_cons.mpr ⟨fun old => ?_, distinct⟩, List.forall_mem_cons.mpr ⟨Nat.le_refl _, ?_⟩⟩
      · exact absurd (issued _ old) (Nat.not_succ_le_self _)
      · exact fun handle held => Nat.le_succ_of_le (issued handle held)
  | destroyed id handle aimed accounts native created disposed =>
      have natives := live.trans (accounts.map Prod.snd)
      have held : handle ∈ before.native.live := natives.mem_iff.mpr List.mem_cons_self
      replace native := native.trans (ReferenceState.dispose_of_mem held)
      rw [native]
      refine ⟨?_, distinct.erase handle,
        fun other kept => issued other (List.mem_of_mem_erase kept)⟩
      have erased := natives.erase handle
      rwa [List.map_cons, List.erase_cons_head] at erased
  | passed accounts native created disposed =>
      replace native := native.trans before.native.dispose_create
      rw [native]
      exact ⟨live.trans (accounts.map Prod.snd).symm, distinct,
        fun handle held => Nat.le_succ_of_le (issued handle held)⟩

/-- The reference engine numbers its handles. -/
theorem Deal.numbered (deal : Deal .reference target before after events) :
    ∃ count, createdIn events = List.range' (before.native.issued + 1) count ∧
      after.native.issued = before.native.issued + count := by
  cases deal with
  | idle accounts native silent => exact ⟨0, silent.created, congrArg _ native⟩
  | created id accounts native created disposed => exact ⟨1, created, congrArg _ native⟩
  | destroyed id handle aimed accounts native created disposed =>
      refine ⟨0, created, (congrArg ReferenceState.issued native).trans ?_⟩
      show (before.native.dispose handle).1.issued = _
      unfold ReferenceState.dispose
      split <;> rfl
  | passed accounts native created disposed =>
      exact ⟨1, created, congrArg ReferenceState.issued
        (native.trans before.native.dispose_create)⟩

end Tallies

/-- Once all handles that it holds are taken back, the reference engine holds none. -/
theorem Engine.Serves.live_eq_nil {state last : ReferenceState} {events : List Event}
    (served : Engine.reference.Serves state events last) (created : createdIn events = [])
    (disposed : state.live.Perm (disposedIn events)) : last.live = [] := by
  induction served with
  | done state => exact disposed.eq_nil
  | create later => cases created
  | @dispose state _ rest handle later inductionHypothesis =>
      replace disposed : state.live.Perm (handle :: disposedIn rest) := disposed
      have held : handle ∈ state.live := disposed.mem_iff.mpr List.mem_cons_self
      refine inductionHypothesis created ?_
      have erased := disposed.erase handle
      rw [List.erase_cons_head] at erased
      show (state.dispose handle).1.live.Perm _
      rwa [ReferenceState.dispose_of_mem held]
  | @silent _ _ event rest silent later inductionHypothesis =>
      have given : createdIn (event :: rest) = createdIn rest :=
        List.filterMap_cons_none silent.1
      have taken : disposedIn (event :: rest) = disposedIn rest :=
        List.filterMap_cons_none silent.2
      exact inductionHypothesis (given ▸ created) (taken ▸ disposed)

namespace Workspace

/-- With the reference engine alone, every step keeps the tally and continues the numbers. -/
theorem pursue_tallies {workspace : Workspace ReferenceState}
    (accountable : workspace.store.Accountable)
    (tallies : workspace.native.Tallies workspace.store.natives) (tasks : List Task) :
    (workspace.pursue (tasks.map (Engine.reference, ·))).1.native.Tallies
        (workspace.pursue (tasks.map (Engine.reference, ·))).1.store.natives ∧
      ∃ count, createdIn (workspace.pursue (tasks.map (Engine.reference, ·))).2 =
          List.range' (workspace.native.issued + 1) count ∧
        (workspace.pursue (tasks.map (Engine.reference, ·))).1.native.issued =
          workspace.native.issued + count := by
  induction tasks generalizing workspace with
  | nil => exact ⟨tallies, 0, rfl, rfl⟩
  | cons task rest inductionHypothesis =>
      have dealt := task.dealt Engine.reference accountable
      obtain ⟨last, many, later, counted⟩ :=
        inductionHypothesis dealt.accountable (dealt.deal.tallies tallies)
      obtain ⟨count, first, issued⟩ := dealt.deal.numbered
      refine ⟨last, count + many, ?_, ?_⟩
      · rw [List.map_cons, pursue, createdIn_append, first, later, issued,
          Nat.add_right_comm, List.range'_append_1]
      · rw [List.map_cons, pursue, counted, issued, Nat.add_assoc]

/-! ### From the start to the end -/

/-- All that a run and the end after it let an observer see. -/
def lifetime (workspace : Workspace σ) (run : List (Engine σ × Task)) (closing : Engine σ) :
    List Event :=
  (workspace.pursue run).2 ++ (Action.close closing (workspace.pursue run).1).events

/-- Each handle that was given out is taken back once, by the step that destroys its context or else
at the end, and no other handle is. -/
structure Balanced (workspace : Workspace σ) (run : List (Engine σ × Task)) (closing : Engine σ) :
    Prop where
  once : ∀ handle, (disposedIn (workspace.lifetime run closing)).count handle =
    if handle ∈ createdIn (workspace.lifetime run closing) then 1 else 0
  settles : ∀ earlier engine task later, run = earlier ++ (engine, task) :: later →
    Settles engine (workspace.pursue earlier).1
      (task.run engine (workspace.pursue earlier).1).1
      (task.run engine (workspace.pursue earlier).1).2
  rest : disposedIn (Action.close closing (workspace.pursue run).1).events =
    (workspace.pursue run).1.store.natives
  closed : closing.Serves (workspace.pursue run).1.native
    (Action.close closing (workspace.pursue run).1).events
    (Action.close closing (workspace.pursue run).1).workspace.native
  emptied : (Action.close closing (workspace.pursue run).1).workspace.store.contexts = []

/-- The reference engine holds the handles of the live contexts and no others, as many as there are
live contexts, and nothing after the end. -/
structure Tallied (workspace : Workspace ReferenceState) : Prop where
  live : workspace.native.live.Perm workspace.store.natives
  distinct : workspace.store.natives.Nodup
  counted : workspace.native.live.length = workspace.store.contexts.length
  released : (Action.close .reference workspace).workspace.native.live = []

section Start

variable {settings : Settings} {native : σ} {run : List (Engine σ × Task)} {closing : Engine σ}

theorem start_balances (settings : Settings) (native : σ) (run : List (Engine σ × Task)) :
    (createdIn ((start settings native).pursue run).2).Perm
      (((start settings native).pursue run).1.store.natives ++
        disposedIn ((start settings native).pursue run).2) := by
  have balances := pursue_balances (accountable_start settings native) run
  have nothing : (start settings native).store.natives = [] := rfl
  unfold Balances at balances
  rwa [nothing, List.append_nil] at balances

/-- In the end everything that was given out has been taken back, as often as it was given out. -/
theorem lifetime_balances :
    (createdIn ((start settings native).lifetime run closing)).Perm
      (disposedIn ((start settings native).lifetime run closing)) := by
  obtain ⟨disposed, created, _⟩ :=
    Action.close_settles closing ((start settings native).pursue run).1
  unfold lifetime
  rw [createdIn_append, disposedIn_append, disposed, created, List.append_nil]
  exact (start_balances settings native run).trans List.perm_append_comm

theorem balanced (fresh : (createdIn ((start settings native).lifetime run closing)).Nodup) :
    (start settings native).Balanced run closing where
  once := by
    intro handle
    rw [← lifetime_balances.count_eq, fresh.count]
  settles := by
    rintro earlier engine task later rfl
    have balances := start_balances settings native earlier
    have accountable := accountable_pursue (accountable_start settings native) earlier
    -- What the step gives out is not among the handles given out before.
    unfold lifetime at fresh
    rw [pursue_append, createdIn_append, createdIn_append, pursue, createdIn_append] at fresh
    obtain ⟨old, _, apart⟩ := List.nodup_append.mp fresh.of_append_left
    refine (task.dealt engine accountable).settles accountable
      (balances.nodup_iff.mp old).of_append_left fun handle given backs => ?_
    exact apart handle (balances.mem_iff.mpr (List.mem_append_left _ backs)) handle
      (List.mem_append_left _ given) rfl
  rest := (Action.close_settles closing _).1
  closed := (Action.close_settles closing _).2.2
  emptied := Action.close_empties closing _

end Start

theorem tallied (settings : Settings) (tasks : List Task) :
    ((start settings .start).pursue (tasks.map (Engine.reference, ·))).1.Tallied ∧
      (createdIn ((start settings .start).pursue (tasks.map (Engine.reference, ·))).2).Nodup := by
  have nothing : ReferenceState.start.Tallies [] :=
    ⟨.refl _, List.nodup_nil, fun _ held => by cases held⟩
  obtain ⟨tallies, count, numbered, _⟩ :=
    pursue_tallies (accountable_start settings ReferenceState.start) nothing tasks
  obtain ⟨disposed, created, served⟩ := Action.close_settles .reference
    ((start settings .start).pursue (tasks.map (Engine.reference, ·))).1
  refine ⟨⟨tallies.live, tallies.live.nodup_iff.mp tallies.distinct, ?_, ?_⟩, ?_⟩
  · exact tallies.live.length_eq.trans (List.length_map _)
  · exact served.live_eq_nil created (disposed ▸ tallies.live)
  · rw [numbered]
    exact List.nodup_range'

/-- Over the whole life of an arena, whatever its engine does, the handles that the engine gives out
are taken back once each, as long as it never gives one out twice. The reference engine holds the
handles of the live contexts at all times. -/
theorem handles_balanced (settings : Settings) :
    (∀ {σ : Type} (native : σ) (run : List (Engine σ × Task)) (closing : Engine σ),
      (createdIn ((start settings native).lifetime run closing)).Nodup →
        (start settings native).Balanced run closing) ∧
      ∀ tasks : List Task,
        ((start settings .start).pursue (tasks.map (Engine.reference, ·))).1.Tallied ∧
          (createdIn ((start settings .start).pursue (tasks.map (Engine.reference, ·))).2).Nodup :=
  ⟨fun _ _ _ fresh => balanced fresh, tallied settings⟩

/-- Two contexts are created, one is destroyed and refused when it is to be destroyed again. One
description fails, another one is built in the slot that is free again. -/
def tradingRun : List (Engine ReferenceState × Task) :=
  let tasks : List Task :=
    [.request (.command (.createContext "first")),
      .request (.command (.createContext "second")),
      .build missingLocal,
      .request (.command (.destroyContext ⟨0, 0⟩)),
      .request (.command (.destroyContext ⟨0, 0⟩)),
      .build maxModule]
  tasks.map (Engine.reference, ·)

/-- The failing build takes its own handle back, and the end takes back the last two. -/
theorem tradingRun_balanced :
    createdIn ((start .standard .start).lifetime tradingRun .reference) = [1, 2, 3, 4] ∧
      disposedIn ((start .standard .start).lifetime tradingRun .reference) = [3, 1, 4, 2] ∧
      (createdIn ((start .standard .start).lifetime tradingRun .reference)).Nodup ∧
      (start .standard .start).Balanced tradingRun .reference := by
  have evaluated : createdIn ((start .standard .start).lifetime tradingRun .reference) =
        [1, 2, 3, 4] ∧
      disposedIn ((start .standard .start).lifetime tradingRun .reference) = [3, 1, 4, 2] := by
    decide +kernel
  have fresh : (createdIn ((start .standard .start).lifetime tradingRun .reference)).Nodup := by
    rw [evaluated.1]
    decide
  exact ⟨evaluated.1, evaluated.2, fresh,
    (handles_balanced .standard).1 ReferenceState.start tradingRun .reference fresh⟩

end Workspace

end TypedIR
