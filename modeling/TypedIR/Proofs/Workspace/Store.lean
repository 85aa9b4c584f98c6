import TypedIR.Proofs.Context.Lookup
import TypedIR.Store

/-!
Contract: which contexts a store has after each of its changes.

Owns: the look-up of contexts after a context was replaced, created, destroyed, or
got a new record, in terms of the look-up before. The settings stay throughout.
-/

namespace TypedIR.Store

variable {store : Store} {id other : ContextId} {context changed : Context}

theorem context?_eq_some :
    store.context? id = some context ↔
      ∃ slot, store.slots[id.index]? = some slot ∧ slot.generation = id.generation ∧
        slot.context = some context := by
  unfold context?
  cases store.slots[id.index]? with
  | none => simp
  | some slot => by_cases same : slot.generation = id.generation <;> simp [same]

theorem context?_put (found : store.context? id = some context) :
    (store.put id.index changed).context? other =
      if other = id then some changed else store.context? other := by
  obtain ⟨slot, lookup, generation, _⟩ := context?_eq_some.mp found
  unfold put context?
  simp only [Array.getElem?_modify]
  by_cases same : other = id
  · subst same
    simp [lookup, generation]
  · rw [if_neg same]
    by_cases slotSame : id.index = other.index
    · rw [if_pos slotSame, ← slotSame, lookup]
      -- The slot is shared, so the generations differ.
      have apart : slot.generation ≠ other.generation := by
        intro equal
        apply same
        cases other
        cases id
        simp_all
      simp [apart]
    · rw [if_neg slotSame]

/-- The same context may be put back. -/
theorem put_self (found : store.context? id = some context) :
    store.put id.index context = store := by
  obtain ⟨slot, lookup, _, held⟩ := context?_eq_some.mp found
  have slots : store.slots.modify id.index (fun slot => { slot with context := some context }) =
      store.slots := by
    apply Array.ext_getElem?
    intro index
    rw [Array.getElem?_modify]
    by_cases same : id.index = index
    · rw [if_pos same, ← same, lookup, Option.map_some, ← held]
    · rw [if_neg same]
  rw [put, slots]

theorem put_put (index : Nat) :
    (store.put index context).put index changed = store.put index changed := by
  rw [put, put, put, Table.array_modify_modify]
  rfl

theorem settings_create {native : NativeHandle} {name : String} :
    (store.create native name).2.settings = store.settings := by
  unfold create
  cases store.free <;> rfl

theorem fst_create {native : NativeHandle} {name : String} :
    (store.create native name).1 = store.nextId := by
  unfold create
  cases store.free <;> rfl

/-- After creation, a context is the new one or was there before. -/
theorem context?_create {native : NativeHandle} {name : String}
    (found : (store.create native name).2.context? id = some context) :
    (store.nextId = id ∧ context = .empty id native name) ∨ store.context? id = some context := by
  obtain ⟨slot, lookup, generation, held⟩ := context?_eq_some.mp found
  unfold create at lookup
  cases free : store.free with
  | nil =>
      simp only [free, nextId, Array.getElem?_push] at lookup
      by_cases last : id.index = store.slots.size
      · rw [if_pos last] at lookup
        obtain rfl := Option.some.inj lookup
        obtain rfl := Option.some.inj held
        have same : (⟨store.slots.size, 0⟩ : ContextId) = id := by
          cases id
          simp_all
        have next : store.nextId = id := by
          rw [nextId, free]
          exact same
        exact .inl ⟨next, by rw [same]⟩
      · rw [if_neg last] at lookup
        exact .inr (context?_eq_some.mpr ⟨slot, lookup, generation, held⟩)
  | cons index rest =>
      simp only [free, nextId, put, Array.getElem?_modify] at lookup
      by_cases reused : index = id.index
      · rw [if_pos reused] at lookup
        obtain ⟨old, oldLookup, rfl⟩ := Option.map_eq_some_iff.mp lookup
        obtain rfl := Option.some.inj held
        have same : (⟨index, ((store.slots[index]?).map (·.generation)).getD 0⟩ : ContextId) =
            id := by
          rw [reused, oldLookup]
          cases id
          simp_all
        have next : store.nextId = id := by
          rw [nextId, free]
          exact same
        exact .inl ⟨next, by rw [same]⟩
      · rw [if_neg reused] at lookup
        exact .inr (context?_eq_some.mpr ⟨slot, lookup, generation, held⟩)

theorem resolve_eq_ok : store.resolve id = .ok context ↔ store.context? id = some context := by
  unfold resolve
  cases store.context? id <;> simp

theorem read_done {α : Type} {query : Context → Except Fault α} {result : α}
    (done : store.read id query = .ok result) :
    ∃ context, store.context? id = some context ∧ query context = .ok result := by
  obtain ⟨context, resolved, answered⟩ := bind_eq_ok.mp done
  exact ⟨context, resolve_eq_ok.mp resolved, answered⟩

/-- In an emptied slot, no context is found. -/
theorem context?_of_emptied {index generation : Nat} {free : List Nat}
    (found : (⟨store.settings, store.slots.setIfInBounds index ⟨generation, none⟩, free⟩ :
      Store).context? other = some context) : store.context? other = some context := by
  obtain ⟨slot, lookup, sameGeneration, held⟩ := context?_eq_some.mp found
  rw [Array.getElem?_setIfInBounds] at lookup
  by_cases emptied : index = other.index
  · rw [if_pos emptied] at lookup
    split at lookup
    · obtain rfl := Option.some.inj lookup
      cases held
    · cases lookup
  · rw [if_neg emptied] at lookup
    exact context?_eq_some.mpr ⟨slot, lookup, sameGeneration, held⟩

/-- Destruction empties the slot of a live context, and frees it if there is a next generation. -/
theorem destroy_done {after : Store} (done : store.destroy id = .ok (context, after)) :
    store.context? id = some context ∧ after =
      if id.generation < maxGeneration then
        { store with
          slots := store.slots.setIfInBounds id.index ⟨id.generation + 1, none⟩
          free := id.index :: store.free }
      else
        { store with slots := store.slots.setIfInBounds id.index ⟨id.generation, none⟩ } := by
  unfold destroy at done
  obtain ⟨live, resolved, done⟩ := bind_eq_ok.mp done
  by_cases more : id.generation < maxGeneration
  · rw [if_pos more] at done ⊢
    obtain ⟨rfl, rfl⟩ := Prod.mk.inj (pure_eq_ok.mp done)
    exact ⟨resolve_eq_ok.mp resolved, rfl⟩
  · rw [if_neg more] at done ⊢
    obtain ⟨rfl, rfl⟩ := Prod.mk.inj (pure_eq_ok.mp done)
    exact ⟨resolve_eq_ok.mp resolved, rfl⟩

/-- A live context can be destroyed. -/
theorem destroy_of_live (found : store.context? id = some context) :
    ∃ after, store.destroy id = .ok (context, after) := by
  unfold destroy
  rw [resolve_eq_ok.mpr found]
  by_cases more : id.generation < maxGeneration
  · exact ⟨_, if_pos more⟩
  · exact ⟨_, if_neg more⟩

theorem destroy_ok {destroyed : Context} {after : Store}
    (done : store.destroy id = .ok (destroyed, after)) :
    after.settings = store.settings ∧
      ∀ other context, after.context? other = some context →
        store.context? other = some context := by
  obtain ⟨_, rfl⟩ := destroy_done done
  by_cases more : id.generation < maxGeneration
  · rw [if_pos more]
    exact ⟨rfl, fun _ _ => context?_of_emptied⟩
  · rw [if_neg more]
    exact ⟨rfl, fun _ _ => context?_of_emptied⟩

/-- A record is put into the context of its function. -/
theorem recordState_eq {function : FunctionId} {state : VerificationState}
    (found : store.context? function.context = some context) :
    store.recordState function state =
      store.put function.context.index (context.recordState function.index state) := by
  unfold recordState
  rw [found]

end TypedIR.Store
