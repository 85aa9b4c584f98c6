import Mathlib.Data.List.Find
import TypedIR.Proofs.Arena.Reading
import TypedIR.Proofs.Context.Change
import TypedIR.Proofs.Workspace.Store

/-!
Contract: writes in place against changes of a whole context.

Owns:
- runs of computations in place, step by step;
- transactions, which give a changed context or a fault, and when a computation in place realizes
  one: it leaves the arena of the changed context, or fails with the same fault and has written
  nothing;
- single writes to the contents of a context: a structure, a value, a block, or a change of one
  entry.

A computation that has begun to write may not fail any more, so behind the first write each step
has to complete.
-/

namespace TypedIR

open Arena (Contents)

/-! ### Steps in place -/

namespace InPlace

variable {σ α β : Type} {state after : σ}

theorem bind_of_ok {first : InPlace σ α} {next : α → InPlace σ β} {value : α}
    (done : first state = (.ok value, after)) : (first >>= next) state = next value after := by
  show InPlace.bind first next state = _
  unfold InPlace.bind
  rw [done]

theorem bind_of_error {first : InPlace σ α} {next : α → InPlace σ β} {fault : Fault}
    (failed : first state = (.error fault, after)) :
    (first >>= next) state = (.error fault, after) := by
  show InPlace.bind first next state = _
  unfold InPlace.bind
  rw [failed]

theorem read_bind_of_ok {query : σ → Except Fault α} {next : α → InPlace σ β} {value : α}
    (answer : query state = .ok value) : (read query >>= next) state = next value state := by
  apply bind_of_ok
  show (query state, state) = _
  rw [answer]

theorem read_bind_of_error {query : σ → Except Fault α} {next : α → InPlace σ β} {fault : Fault}
    (refused : query state = .error fault) :
    (read query >>= next) state = (.error fault, state) := by
  apply bind_of_error
  show (query state, state) = _
  rw [refused]

theorem read_refused {query : σ → Except Fault α} {fault : Fault}
    (refused : query state = .error fault) : read query state = (.error fault, state) := by
  show (query state, state) = _
  rw [refused]

theorem update_bind (change : σ → α × σ) (next : α → InPlace σ β) :
    (update change >>= next) state = next (change state).1 (change state).2 := rfl

theorem write_bind (change : σ → σ) (next : Unit → InPlace σ β) :
    (write change >>= next) state = next () (change state) := rfl

/-! ### Transactions -/

variable {store : Store} {context : Context}

/-- The arena with the changed context in the place of the old one, or as it was behind a fault. -/
def settled (store : Store) (context : Context) :
    Except Fault (α × Context) → Except Fault α × Arena
  | .ok changed => (.ok changed.1, (store.put context.id.index changed.2).arena)
  | .error fault => (.error fault, store.arena)

/-- The computation does what the transaction does, and nothing where it fails. -/
def Realizes (work : InPlace Arena α) (transaction : Except Fault (α × Context)) (store : Store)
    (context : Context) : Prop :=
  work store.arena = settled store context transaction

/-- The transaction succeeds, and the computation with it. -/
structure Completes (work : InPlace Arena α) (changed : α × Context) (store : Store)
    (context : Context) : Prop where
  id_eq : changed.2.id = context.id
  written : work store.arena =
    (.ok changed.1, (store.put context.id.index changed.2).arena)

theorem Completes.realizes {work : InPlace Arena α} {changed : α × Context}
    (completes : work.Completes changed store context) :
    work.Realizes (.ok changed) store context := completes.written

theorem Realizes.completes {work : InPlace Arena α} {transaction : Except Fault (α × Context)}
    {changed : α × Context} (realizes : work.Realizes transaction store context)
    (done : transaction = .ok changed) (same : changed.2.id = context.id) :
    work.Completes changed store context := by
  subst done
  exact ⟨same, realizes⟩

theorem realizes_refuse (fault : Fault) :
    (refuse fault : InPlace Arena α).Realizes (throw fault) store context := rfl

/-- A refusal whose text is looked up. -/
theorem realizes_throw {fault : Arena → Fault} {other : Fault}
    (same : fault store.arena = other) :
    (read fun arena => throw (fault arena) : InPlace Arena α).Realizes (throw other) store
      context := by
  subst same
  rfl

/-- A check in front changes nothing. What the context finds is found with handles in it. -/
theorem realizes_read {γ : Type} {query : Arena → Except Fault α} {look : Except Fault γ}
    {tag : γ → α} {next : α → InPlace Arena β} {action : γ → Except Fault (β × Context)}
    (same : query store.arena = look.map tag)
    (each : ∀ value, look = .ok value →
      (next (tag value)).Realizes (action value) store context) :
    (read query >>= next).Realizes (look >>= action) store context := by
  cases found : look with
  | error fault =>
      rw [found] at same
      exact read_bind_of_error same
  | ok value =>
      rw [found] at same
      exact (read_bind_of_ok same).trans (each value found)

/-- One look in place may be two of the context. -/
theorem realizes_read_both {γ δ : Type} {query : Arena → Except Fault α} {look : Except Fault γ}
    {further : γ → Except Fault δ} {tag : δ → α} {next : α → InPlace Arena β}
    {action : δ → Except Fault (β × Context)}
    (same : query store.arena = (look >>= further).map tag)
    (each : ∀ value, (look >>= further) = .ok value →
      (next (tag value)).Realizes (action value) store context) :
    (read query >>= next).Realizes (look >>= fun found => further found >>= action) store
      context := by
  have joined : (look >>= fun found => further found >>= action) = (look >>= further) >>= action :=
    (bind_assoc look further action).symm
  rw [joined]
  exact realizes_read same each

theorem realizes_check {query : Arena → Except Fault α} {look : Except Fault α}
    {next : α → InPlace Arena β} {action : α → Except Fault (β × Context)}
    (same : query store.arena = look)
    (each : ∀ value, look = .ok value → (next value).Realizes (action value) store context) :
    (read query >>= next).Realizes (look >>= action) store context := by
  have unchanged : look = look.map id := by cases look <;> rfl
  exact realizes_read (same.trans unchanged) each

/-- A look never fails. -/
theorem realizes_look {view : Arena → α} {next : α → InPlace Arena β}
    {transaction : Except Fault (β × Context)}
    (rest : (next (view store.arena)).Realizes transaction store context) :
    (look view >>= next).Realizes transaction store context := rest

theorem realizes_ite {condition : Prop} [Decidable condition] {first second : InPlace Arena α}
    {one two : Except Fault (α × Context)}
    (holding : condition → first.Realizes one store context)
    (failing : ¬ condition → second.Realizes two store context) :
    (if condition then first else second).Realizes (if condition then one else two) store
      context := by
  by_cases holds : condition
  · rw [if_pos holds, if_pos holds]
    exact holding holds
  · rw [if_neg holds, if_neg holds]
    exact failing holds

theorem Completes.read {query : Arena → Except Fault α} {value : α} {next : α → InPlace Arena β}
    {changed : β × Context} (answer : query store.arena = .ok value)
    (rest : (next value).Completes changed store context) :
    (InPlace.read query >>= next).Completes changed store context where
  id_eq := rest.id_eq
  written := (read_bind_of_ok answer).trans rest.written

theorem Completes.bind {first : InPlace Arena α} {next : α → InPlace Arena β}
    {changed : α × Context} {final : β × Context} (start : first.Completes changed store context)
    (rest : (next changed.1).Completes final (store.put context.id.index changed.2) changed.2) :
    (first >>= next).Completes final store context where
  id_eq := rest.id_eq.trans start.id_eq
  written := by
    rw [bind_of_ok start.written, rest.written, start.id_eq, Store.put_put]

/-- Behind the first write, nothing may fail any more. -/
theorem Realizes.bind {first : InPlace Arena α} {next : α → InPlace Arena β}
    {transaction : Except Fault (α × Context)} {action : α × Context → Except Fault (β × Context)}
    (start : first.Realizes transaction store context)
    (rest : ∀ changed, transaction = .ok changed → changed.2.id = context.id ∧
      ∃ final, action changed = .ok final ∧ (next changed.1).Completes final
        (store.put context.id.index changed.2) changed.2) :
    (first >>= next).Realizes (transaction >>= action) store context := by
  cases transaction with
  | error fault => exact bind_of_error start
  | ok changed =>
      obtain ⟨same, final, done, later⟩ := rest changed rfl
      rw [ok_bind, done]
      exact (Completes.bind ⟨same, start⟩ later).realizes

theorem Realizes.map {work : InPlace Arena α} {transaction : Except Fault (α × Context)}
    (view : α → β) (realizes : work.Realizes transaction store context) :
    (view <$> work).Realizes
      (transaction.map fun changed => (view changed.1, changed.2)) store context := by
  cases transaction with
  | error fault => exact bind_of_error realizes
  | ok changed => exact bind_of_ok realizes

theorem Completes.map {work : InPlace Arena α} {changed : α × Context} (view : α → β)
    (completes : work.Completes changed store context) :
    (work >>= fun value => pure (view value)).Completes (view changed.1, changed.2) store
      context where
  id_eq := completes.id_eq
  written := bind_of_ok completes.written

end InPlace

/-! ### Single writes -/

namespace Context

variable {context : Context}

theorem contents_intern (shape : TypeShape) : context.contents.intern (shape.tagged context.id) =
    ((context.intern shape).1.index, (context.intern shape).2.contents) := by
  unfold Contents.intern intern
  rw [context.contents_interned]
  cases found : context.findType? shape with
  | some type => rfl
  | none =>
      have size : context.contents.types.size = context.types.size := Array.size_map
      have missing := (context.contents_interned shape).trans found
      apply Prod.ext
      · exact size
      · show ({ context.contents with
            types := context.contents.types.push (shape.tagged context.id)
            interned := context.contents.interned.insert (shape.tagged context.id)
              context.contents.types.size } : Contents) =
          ({ context with types := context.types.push shape } : Context).contents
        apply Contents.ext <;> try rfl
        · exact Array.map_push.symm
        · ext kind : 1
          have old : context.types.findIdx? (fun stored => stored.tagged context.id = kind) =
              context.contents.interned.get? kind := rfl
          show _ = (context.types.push shape).findIdx? _
          rw [Map.get?_insert, Array.findIdx?_push, old, size]
          by_cases same : kind = shape.tagged context.id
          · rw [same, missing]
            simp
          · simp [same, Ne.symm same]

/-- Functions are found under their names as long as they and their names stay. -/
theorem functionNamed?_congr {before after : Context}
    (selves : after.functions.map (·.self) = before.functions.map (·.self))
    (names : ∀ function, before.IsFunction function →
      (after.value? function).map (·.name) = (before.value? function).map (·.name)) :
    after.functionNamed? = before.functionNamed? := by
  have searched : ∀ (context : Context) (name : String),
      (context.functions.find? fun entry =>
        (context.value? entry.self).map (·.name) = some name).map (·.self) =
      (context.functions.map (·.self)).find? fun function =>
        (context.value? function).map (·.name) = some name := by
    intro context name
    rw [List.find?_map]
    rfl
  funext name
  unfold functionNamed?
  rw [searched, searched, selves]
  congr 1
  apply List.find?_congr
  intro function listed
  obtain ⟨entry, member, self⟩ := List.mem_map.mp listed
  rw [names function ⟨entry, member, self⟩]

/-- The functions are among the values. -/
def FunctionsInside (context : Context) : Prop :=
  ∀ function, context.IsFunction function → function < context.values.size

theorem contents_pushValue (inside : context.FunctionsInside) (value : Value) :
    context.contents.pushValue (value.tagged context.id) =
      ((context.pushValue value).1, (context.pushValue value).2.contents) := by
  have size : context.contents.values.size = context.values.size := Table.size_map _ _
  have names : (context.pushValue value).2.functionNamed? = context.functionNamed? := by
    refine functionNamed?_congr ?_ fun function live => ?_
    · rfl
    show ((context.values.push value).get? function).map _ = _
    rw [Table.get?_push, if_neg (Nat.ne_of_lt (inside function live))]
    rfl
  apply Prod.ext
  · show (⟨context.id, context.contents.values.size⟩ : ValueId) = ⟨context.id, context.values.size⟩
    rw [size]
  · apply Contents.ext <;> try rfl
    · exact (Table.map_push _ _ _).symm
    · ext name : 1
      exact (congrArg (Option.map context.functionId) (congrFun names name)).symm

theorem contents_pushBlock (home : Block) :
    context.contents.pushBlock (home.tagged context.id) = (context.blockId context.blocks.size,
      ({ context with blocks := context.blocks.push home } : Context).contents) := by
  have size : context.contents.blocks.size = context.blocks.size := Table.size_map _ _
  apply Prod.ext
  · show (⟨context.id, context.contents.blocks.size⟩ : BlockId) = ⟨context.id, context.blocks.size⟩
    rw [size]
  · apply Contents.ext <;> try rfl
    exact (Table.map_push _ _ _).symm

theorem contents_modifyBlock {block : BlockRef} {change : Block → Block}
    {viewed : Arena.Block → Arena.Block}
    (same : ∀ home, (change home).tagged context.id = viewed (home.tagged context.id)) :
    { context.contents with blocks := context.contents.blocks.modify block viewed } =
      ({ context with blocks := context.blocks.modify block change } : Context).contents := by
  apply Contents.ext <;> try rfl
  exact (Table.map_modify same _ _).symm

theorem contents_updateFunction {function : ValueRef} {change : FunctionEntry → FunctionEntry}
    {viewed : Arena.Body → Arena.Body} (self : ∀ entry, (change entry).self = entry.self)
    (same : ∀ entry, (change entry).body context.id = viewed (entry.body context.id)) :
    { context.contents with bodies := context.contents.bodies.modify function viewed } =
      (context.updateFunction function change).contents := by
  have selves : (context.updateFunction function change).functions.map (·.self) =
      context.functions.map (·.self) := by
    rw [updateFunction, List.map_map]
    refine List.map_congr_left fun entry _ => ?_
    show (if entry.self = function then change entry else entry).self = _
    split
    · exact self entry
    · rfl
  have functions : context.contents.functions =
      ((context.updateFunction function change).functions.map (·.self)).map context.functionId := by
    rw [selves, List.map_map]
    rfl
  have names : (context.updateFunction function change).functionNamed? = context.functionNamed? :=
    functionNamed?_congr selves fun _ _ => rfl
  apply Contents.ext <;> try rfl
  · ext other : 1
    rw [Map.get?_modify, contents_bodies, contents_bodies, function?_updateFunction self]
    by_cases here : other = function
    · rw [if_pos here, if_pos here, Option.map_map, Option.map_map]
      exact congrArg (Option.map · _) (funext fun entry => (same entry).symm)
    · rw [if_neg here, if_neg here]
      rfl
  · rw [functions, List.map_map]
    rfl
  · ext name : 1
    exact (congrArg (Option.map context.functionId) (congrFun names name)).symm

end Context

/-! ### Single steps in an arena -/

namespace Store.Holds

variable {α : Type} {store : Store} {context : Context} (holds : store.Holds context)

include holds

theorem put {changed : Context} (same : changed.id = context.id) :
    (store.put context.id.index changed).Holds changed := by
  have found := @context?_put store context.id changed.id context changed holds
  rw [if_pos same] at found
  exact found

theorem within {work : InPlace Contents α} {value : α} {changed : Context}
    (same : changed.id = context.id)
    (written : work context.contents = (.ok value, changed.contents)) :
    (Arena.within context.id work).Completes (value, changed) store context where
  id_eq := same
  written := by
    unfold Arena.within
    rw [holds.contents]
    show ((work context.contents).1, store.arena.put _ (work context.contents).2) = _
    rw [written, arena_put]

/-- Where the work on the contents fails without a trace, the arena stays as it is. -/
theorem within_refused {work : InPlace Contents α} {fault : Fault}
    (refused : work context.contents = (.error fault, context.contents)) :
    Arena.within context.id work store.arena = (.error fault, store.arena) := by
  unfold Arena.within
  rw [holds.contents]
  show ((work context.contents).1, store.arena.put _ (work context.contents).2) = _
  rw [refused, arena_put, put_self holds]

theorem intern (shape : TypeShape) : (Arena.intern context.id (shape.tagged context.id)).Completes
    (context.intern shape) store context := by
  have tag : (context.intern shape).1 = ⟨context.id, (context.intern shape).1.index⟩ := by
    unfold Context.intern
    cases context.findType? shape <;> rfl
  have same : (context.intern shape).2.id = context.id := by
    unfold Context.intern
    cases context.findType? shape <;> rfl
  have written : (InPlace.update fun home => home.intern (shape.tagged context.id))
      context.contents =
        (.ok (context.intern shape).1.index, (context.intern shape).2.contents) := by
    show (Except.ok (context.contents.intern _).1, (context.contents.intern _).2) = _
    rw [context.contents_intern]
  have interned := (holds.within same written).map (TypeId.mk context.id)
  rw [← tag] at interned
  exact interned

theorem pushValue (inside : context.FunctionsInside) (value : Value) :
    (Arena.within context.id
      (.update fun home => home.pushValue (value.tagged context.id))).Completes
      (context.pushValue value) store context := by
  refine holds.within rfl ?_
  show (Except.ok (context.contents.pushValue _).1, (context.contents.pushValue _).2) = _
  rw [context.contents_pushValue inside]
  rfl

theorem pushConstant (inside : context.FunctionsInside) (type : TypeRef) (kind : ValueKind) :
    (Arena.pushConstant context.id (context.typeId type) (kind.tagged context.id)).Completes
      (context.pushConstant (context.typeId type) kind) store context :=
  holds.pushValue inside ⟨type, kind, ""⟩

section Alterations

variable {change : FunctionEntry → FunctionEntry} {viewed : Arena.Body → Arena.Body}
  (self : ∀ entry, (change entry).self = entry.self)
  (same : ∀ entry, (change entry).body context.id = viewed (entry.body context.id))

include self same

theorem alterBody {function : FunctionId} (home : function.context = context.id) :
    (Arena.alterBody function viewed).Realizes (context.resolveFunction function >>= fun _ =>
      pure ((), context.updateFunction function.index change)) store context := by
  apply InPlace.realizes_read (holds.body home)
  intro entry _
  rw [home]
  refine (holds.within ?_ ?_).realizes
  · rfl
  · exact congrArg (Prod.mk _) (Context.contents_updateFunction self same)

theorem alterBody_completes {function : ValueRef} (live : context.IsFunction function) :
    (Arena.alterBody (context.functionId function) viewed).Completes
      ((), context.updateFunction function change) store context := by
  obtain ⟨entry, lookup⟩ := Option.isSome_iff_exists.mp (Context.isSome_function?.mpr live)
  have resolved : context.resolveFunction (context.functionId function) = .ok entry :=
    Context.resolveFunction_eq_ok.mpr ⟨rfl, lookup⟩
  refine ⟨rfl, (holds.alterBody self same rfl).trans ?_⟩
  rw [resolved]
  rfl

end Alterations

theorem alterBlock {change : Block → Block} {viewed : Arena.Block → Arena.Block}
    (same : ∀ home, (change home).tagged context.id = viewed (home.tagged context.id))
    {block : BlockId} {home : Block} (found : context.resolveBlock block = .ok home) :
    (Arena.alterBlock block viewed).Completes
      ((), { context with blocks := context.blocks.modify block.index change }) store context := by
  have tag := (Context.resolveBlock_eq_ok.mp found).1
  have realizes : (Arena.alterBlock block viewed).Realizes (context.resolveBlock block >>= fun _ =>
      pure ((), { context with blocks := context.blocks.modify block.index change })) store
      context := by
    apply InPlace.realizes_read (holds.block tag)
    intro _ _
    rw [tag]
    refine (holds.within ?_ ?_).realizes
    · rfl
    · exact congrArg (Prod.mk _) (Context.contents_modifyBlock same)
  rw [found] at realizes
  exact ⟨rfl, realizes⟩

end Store.Holds

end TypedIR
