import TypedIR.Proofs.Ownership.Release
import TypedIR.Proofs.Workspace.Reachable
import TypedIR.Proofs.Workspace.Slots

/-!
Contract: dead handles stay dead.

Owns:
- properties of stores that all commands keep, by what a command can do to a store:
  create a context, destroy one, and change one elementarily;
- the identities given out, as such a property, and what changes keep in all contexts or in
  the one of an identity;
- live and dead handles of a store: a dead one was given out, and its context or its
  entry is gone;
- where dead handles come from, and that no sequence of commands revives one.
-/

namespace TypedIR

variable {σ : Type} {engine : Engine σ} {initial : σ} {settings : Settings}

namespace Store

variable {store : Store} {handle : Handle}

/-- The property lasts through everything that commands do to a store. -/
structure Lasting (settings : Settings) (holds : Store → Prop) : Prop where
  created : ∀ {store} native name, holds store → holds (store.create native name).2
  destroyed : ∀ {store id context after}, store.destroy id = .ok (context, after) →
    holds store → holds after
  changed : ∀ {store effect id context changed}, store.context? id = some context →
    context.Coherent → Changes settings effect context changed → holds store →
    holds (store.put id.index changed)

namespace Lasting

variable {holds : Store → Prop} (lasting : Lasting settings holds)

/-- The property, for the store of a workspace whose contexts are coherent. -/
def Within (settings : Settings) (holds : Store → Prop) (workspace : Workspace σ) : Prop :=
  workspace.Every settings Context.Coherent ∧ holds workspace.store

include lasting

theorem perform {α : Type} {workspace : Workspace σ}
    (every : workspace.Every settings Context.Coherent) (held : holds workspace.store)
    (operation : Operation α) (effect : Effect)
    (changes : ∀ home value changed, home.id = operation.home →
      (operation.effect home).1 = .ok (value, changed) → Changes settings effect home changed) :
    holds (Action.perform operation workspace).workspace.store := by
  rcases Action.perform_cases operation workspace with ⟨_, _, same⟩ | performed
  · rwa [same]
  · obtain ⟨home, value, changed, found, done, _, equal⟩ := performed
    obtain ⟨sameId, coherent⟩ := every.contexts _ home found
    rw [equal]
    exact lasting.changed found coherent (changes home value changed sameId done) held

theorem verified (function : FunctionId) {workspace : Workspace σ}
    (every : workspace.Every settings Context.Coherent) (held : holds workspace.store) :
    holds (Action.verify engine function workspace).workspace.store := by
  rcases Action.verify_cases engine function workspace with ⟨_, _, same⟩ | verified
  · rwa [same]
  · obtain ⟨context, name, verdict, found, _, _, _, equal⟩ := verified
    rw [equal]
    exact lasting.changed found (every.contexts _ context found).2 (.single (.record _ _)) held

theorem createContext (engine : Engine σ) (name : String) :
    Action.Preserves (Within settings holds) (Action.createContext engine name) := by
  intro workspace ⟨every, held⟩
  have coherent := Workspace.keptBy_coherent engine settings
  exact ⟨Workspace.Every.created coherent name workspace every, lasting.created _ _ held⟩

theorem destroyContext (engine : Engine σ) (id : ContextId) :
    Action.Preserves (Within settings holds) (Action.destroyContext engine id) := by
  intro workspace ⟨every, held⟩
  refine ⟨Workspace.Every.destroyed id workspace every, ?_⟩
  rcases Action.destroyContext_cases engine id workspace with ⟨_, _, same⟩ | destroyed
  · rwa [same]
  · obtain ⟨context, store, done, _, equal⟩ := destroyed
    rw [equal]
    exact lasting.destroyed done held

theorem command (command : Command) :
    Action.Preserves (Within settings holds) (command.run engine) := by
  have coherent := Workspace.keptBy_coherent engine settings
  refine command.preserves (lasting.createContext engine) (lasting.destroyContext engine) ?_ ?_ ?_
  · intro change _ workspace ⟨every, held⟩
    refine ⟨every.edited coherent change.effect_isEdit,
      lasting.perform every held _ change.effect ?_⟩
    intro home value changed sameId done
    rw [every.settings] at sameId done
    exact (Edit.operation_ok sameId done).2
  · intro function code _ workspace ⟨every, held⟩
    refine ⟨Workspace.Every.convened coherent code (fun _ equal => by cases equal) workspace every,
      lasting.perform every held _ .plain ?_⟩
    intro home value changed _ done
    exact (Context.setConvention_ok done).2
  · intro function workspace ⟨every, held⟩
    exact ⟨Workspace.Every.verified coherent function workspace every,
      lasting.verified function every held⟩

theorem afterAll {workspace : Workspace σ} (within : Within settings holds workspace)
    (commands : List Command) :
    holds (Workspace.afterAll engine workspace commands).store :=
  (Workspace.afterAll_preserves (fun command => lasting.command command) within commands).2

end Lasting

/-! ### Identities -/

theorem lasting_sound : Lasting settings Sound where
  created := fun _ _ sound => sound.create
  destroyed := fun done sound => sound.destroy done
  changed := fun found _ _ sound => sound.put found

theorem lasting_hasIssued (settings : Settings) (id : ContextId) :
    Lasting settings fun store => store.Sound ∧ store.HasIssued id where
  created := by
    intro store native name ⟨sound, issued⟩
    refine ⟨sound.create, Nat.lt_of_lt_of_le issued ?_⟩
    rw [sound.create_issues.2]
    split
    · exact Nat.le_succ _
    · exact Nat.le_refl _
  destroyed := by
    intro store other context after done ⟨sound, issued⟩
    exact ⟨sound.destroy done, Nat.lt_of_lt_of_eq issued (sound.issuedBy_destroy done _).symm⟩
  changed := by
    intro store effect other context changed found _ _ ⟨sound, issued⟩
    exact ⟨sound.put found, Nat.lt_of_lt_of_eq issued issuedBy_put.symm⟩

/-! ### Contexts -/

theorem Lasting.congr {first second : Store → Prop} (lasting : Lasting settings first)
    (same : ∀ store, first store ↔ second store) : Lasting settings second := by
  obtain rfl : first = second := funext fun store => propext (same store)
  exact lasting

/-- What changes keep lasts in all contexts, if it holds of those just created. -/
theorem lasting_every {holds : Context → Prop}
    (fresh : ∀ id native name, holds (.empty id native name))
    (invariant : Context.Invariant settings holds) :
    Lasting settings fun store => ∀ id context, store.context? id = some context → holds context where
  created := by
    intro store native name every id context found
    rcases context?_create found with ⟨_, rfl⟩ | old
    · exact fresh id native name
    · exact every id context old
  destroyed := by
    intro store other gone after done every id context found
    exact every id context ((destroy_ok done).2 id context found)
  changed := by
    intro store effect other before after found coherent changes every id context lookup
    rw [context?_put found] at lookup
    by_cases same : id = other
    · rw [if_pos same] at lookup
      obtain rfl := Option.some.inj lookup
      exact (invariant.changes coherent (every other before found) changes).2
    · rw [if_neg same] at lookup
      exact every id context lookup

/-- What changes keep lasts in the context of an identity that was given out. -/
theorem lasting_on (id : ContextId) {holds : Context → Prop}
    (invariant : Context.Invariant settings holds) :
    Lasting settings fun store => (store.Sound ∧ store.HasIssued id) ∧
      ∀ context, store.context? id = some context → holds context where
  created := by
    intro store native name ⟨⟨sound, issued⟩, held⟩
    refine ⟨(lasting_hasIssued settings id).created native name ⟨sound, issued⟩, ?_⟩
    intro context found
    rcases context?_create found with ⟨next, _⟩ | old
    · -- The new context has an identity that was not given out before.
      have fresh := sound.create_fresh native name
      rw [fst_create, next] at fresh
      exact absurd issued fresh
    · exact held context old
  destroyed := by
    intro store other gone after done ⟨issued, held⟩
    refine ⟨(lasting_hasIssued settings id).destroyed done issued, fun context found => ?_⟩
    exact held context ((destroy_ok done).2 id context found)
  changed := by
    intro store effect other before after found coherent changes ⟨issued, held⟩
    refine ⟨(lasting_hasIssued settings id).changed found coherent changes issued, ?_⟩
    intro context lookup
    rw [context?_put found] at lookup
    by_cases same : id = other
    · rw [if_pos same] at lookup
      obtain rfl := Option.some.inj lookup
      exact (invariant.changes coherent (held before (same ▸ found)) changes).2
    · rw [if_neg same] at lookup
      exact held context lookup

/-! ### Live and dead handles -/

/-- The handle has an entry in its context. -/
def Live (store : Store) (handle : Handle) : Prop :=
  ∃ context, store.context? handle.tag = some context ∧ context.Live handle

/-- The handle was given out, and its context is destroyed or has released the entry. -/
structure Dead (store : Store) (handle : Handle) : Prop where
  issued : store.HasIssued handle.tag
  released : ∀ context, store.context? handle.tag = some context → context.Released handle

theorem Dead.not_live (dead : store.Dead handle) : ¬ store.Live handle := by
  intro ⟨context, found, live⟩
  exact (dead.released context found).gone live

theorem lasting_dead (handle : Handle) :
    Lasting settings fun store => store.Sound ∧ store.Dead handle := by
  have kept : Context.Invariant settings fun context => context.Released handle :=
    fun _ _ _ coherent released change => released.step coherent change
  refine (lasting_on handle.tag kept).congr fun store => ?_
  exact ⟨fun ⟨⟨sound, issued⟩, released⟩ => ⟨sound, issued, released⟩,
    fun ⟨sound, dead⟩ => ⟨⟨sound, dead.issued⟩, dead.released⟩⟩

/-- All handles of a destroyed context are dead. -/
theorem dead_of_destroyed {id : ContextId} {context : Context} {after : Store} (sound : store.Sound)
    (done : store.destroy id = .ok (context, after)) (tagged : handle.tag = id) :
    after.Dead handle where
  issued := by
    obtain ⟨found, _⟩ := destroy_done done
    rw [tagged]
    exact Nat.lt_of_lt_of_eq (sound.hasIssued_of_live found) (sound.issuedBy_destroy done _).symm
  released := by
    intro other found
    rw [tagged, context?_of_destroyed done] at found
    cases found

end Store

namespace Workspace

variable {workspace : Workspace σ}

theorem Reachable.sound (reachable : Reachable engine initial workspace) :
    workspace.store.Sound := by
  obtain ⟨settings, commands, rfl⟩ := reachable
  exact Store.lasting_sound.afterAll
    ⟨every_start settings Context.Coherent, Store.sound_empty settings⟩ commands

/-- What is dead stays dead through any sequence of commands. -/
theorem Reachable.dead_afterAll (reachable : Reachable engine initial workspace) {handle : Handle}
    (dead : workspace.store.Dead handle) (commands : List Command) :
    (workspace.afterAll engine commands).store.Dead handle :=
  ((Store.lasting_dead handle).afterAll ⟨reachable.every, reachable.sound, dead⟩ commands).2

theorem Reachable.live_context (reachable : Reachable engine initial workspace) {id : ContextId}
    {context : Context} (found : workspace.store.context? id = some context) :
    workspace.store.Live (.context id) :=
  ⟨context, found, (reachable.coherent found).1.symm⟩

theorem Reachable.gone_of_dead (reachable : Reachable engine initial workspace) {id : ContextId}
    (dead : workspace.store.Dead (.context id)) : workspace.store.context? id = none := by
  cases found : workspace.store.context? id with
  | none => rfl
  | some context => exact absurd (reachable.live_context found) dead.not_live

/-! ### Where dead handles come from -/

/-- A destroyed context leaves all its handles dead. -/
theorem Reachable.dead_of_destroyed (reachable : Reachable engine initial workspace)
    {id : ContextId} {answer : Answer}
    (done : ((Command.destroyContext id).run engine workspace).result = .ok answer)
    {handle : Handle} (tagged : handle.tag = id) :
    (workspace.after engine (.destroyContext id)).store.Dead handle := by
  obtain ⟨_, succeeded⟩ := Action.ok_of_bind done
  rcases Action.destroyContext_cases engine id workspace with ⟨fault, refused, _⟩ | destroyed
  · cases refused.symm.trans succeeded
  · obtain ⟨context, store, emptied, _, equal⟩ := destroyed
    rw [after_destroyContext, equal]
    exact Store.dead_of_destroyed reachable.sound emptied tagged

/-- A deleted function leaves its own handle dead, and those of all that it owned. -/
theorem Reachable.dead_of_deleted (reachable : Reachable engine initial workspace)
    {function : FunctionId} {answer : Answer}
    (done : ((Command.edit (.deleteFunction function)).run engine workspace).result = .ok answer) :
    ∃ context entry, workspace.store.context? function.context = some context ∧
      context.function? function.index = some entry ∧
      Handle.function function ∈ context.belongings entry ∧
      ∀ handle ∈ context.belongings entry,
        (workspace.after engine (.edit (.deleteFunction function))).store.Dead handle := by
  rcases Action.perform_cases ((Edit.deleteFunction function).operation workspace.store.settings)
    workspace with ⟨fault, refused, _⟩ | performed
  · cases refused.symm.trans done
  obtain ⟨context, value, changed, live, applied, _, equal⟩ := performed
  have found : workspace.store.context? function.context = some context := live
  obtain ⟨sameId, coherent⟩ := reachable.coherent found
  obtain ⟨_, deleted⟩ := Operation.reported_done applied
  obtain ⟨home, entry, lookup, rfl⟩ := Context.deleteFunction_done deleted
  have member := (Context.mem_of_function? lookup).1
  have self : context.functionId entry.self = function := by
    rw [Context.functionId, (Context.mem_of_function? lookup).2, ← home]
  refine ⟨context, entry, found, lookup, ?_, ?_⟩
  · rw [← self]
    exact List.mem_cons_self
  · intro handle belongs
    have released := coherent.owned.released_of_delete member belongs
    have tagged : handle.tag = function.context := released.issued.tag_eq.trans home.symm
    have stored : (workspace.after engine (.edit (.deleteFunction function))).store =
        workspace.store.put function.context.index (context.withoutFunction entry) :=
      congrArg Workspace.store equal
    rw [stored]
    constructor
    · rw [tagged]
      exact Nat.lt_of_lt_of_eq (reachable.sound.hasIssued_of_live found) Store.issuedBy_put.symm
    · intro other present
      rw [tagged, Store.context?_put found, if_pos rfl] at present
      obtain rfl := Option.some.inj present
      exact released

/-! ### Creation -/

theorem created_done {name : String} {id : ContextId}
    (done : ((Command.createContext name).run engine workspace).result =
      .ok (.handle (.context id))) :
    ∃ native, (workspace.store.create native name).1 = id ∧
      (workspace.after engine (.createContext name)).store =
        (workspace.store.create native name).2 := by
  have given : Answer.handle (.context (workspace.store.create _ name).1) = _ :=
    Except.ok.inj done
  exact ⟨_, Handle.context.inj (Answer.handle.inj given), rfl⟩

/-- Of two contexts that a run creates, one after the other, the second has another identity. -/
theorem Reachable.created_apart (reachable : Reachable engine initial workspace)
    {first second : String} {id other : ContextId} {commands : List Command}
    (done : ((Command.createContext first).run engine workspace).result =
      .ok (.handle (.context id)))
    (doneLater : ((Command.createContext second).run engine
      (workspace.afterAll engine (.createContext first :: commands))).result =
        .ok (.handle (.context other))) : id ≠ other := by
  have later := reachable.after_command (.createContext first)
  obtain ⟨native, rfl, created⟩ := created_done done
  obtain ⟨nativeLater, rfl, _⟩ := created_done doneLater
  have issued : (workspace.after engine (.createContext first)).store.HasIssued
      (workspace.store.create native first).1 := by
    rw [created]
    exact reachable.sound.hasIssued_created native first
  obtain ⟨sound, stillIssued⟩ :=
    (Store.lasting_hasIssued _ _).afterAll ⟨later.every, later.sound, issued⟩ commands
  intro same
  apply sound.create_fresh nativeLater second
  rw [same] at stillIssued
  exact stillIssued

end Workspace

end TypedIR
